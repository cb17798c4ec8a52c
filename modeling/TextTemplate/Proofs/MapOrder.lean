import TextTemplate.Data.Value
import TextTemplate.Proofs.DistinctNames

/-!
# The order of maps, and bindings that leave maps alone

A map that was filled has its names in the order in which they were first given, each with the value
that it was given last. Names that are bound on top of a context keep their places if they were
bound before, and else follow behind the others in the order in which they were first bound.

That a binding changes no context is shown over maps that can be written to. A binding writes to a
draft that starts as a copy of the map it is put on top of, and hands out a copy of the draft, so
whatever is bound later, every context on the way still holds what it held.
-/

namespace TextTemplate.Data

namespace Entries

variable {β : Type}

/-- The map when further names are given their values in turn. -/
def insertAll (entries : Entries β) (pairs : List (String × β)) : Entries β :=
  pairs.foldl (fun entries pair => insert pair.1 pair.2 entries) entries

/-- The first of the pairs is given before the others. -/
theorem insertAll_cons (entries : Entries β) (name : String) (value : β)
    (more : List (String × β)) :
    entries.insertAll ((name, value) :: more) = (entries.insert name value).insertAll more :=
  rfl

/-- Giving names their values keeps the places of those that are known and adds the others behind
them, in the order in which they are first given. -/
theorem names_insertAll (entries : Entries β) (pairs : List (String × β)) :
    (entries.insertAll pairs).names =
      entries.names ++ ((pairs.map (·.1)).filter (· ∉ entries.names)).eraseDups := by
  induction pairs generalizing entries with
  | nil => simp [insertAll]
  | cons pair more ih =>
    obtain ⟨name, value⟩ := pair
    rw [insertAll_cons, ih, names_insert, List.map_cons]
    by_cases known : name ∈ entries.names
    · rw [if_pos known, List.filter_cons_of_neg (by simpa using known)]
    · have apart : ∀ other ∈ more.map (·.1), decide (other ∉ entries.names ++ [name]) =
          (!other == name && decide (other ∉ entries.names)) := by
        intro other _
        by_cases same : other = name <;> simp [same]
      rw [if_neg known, List.filter_cons_of_pos (by simpa using known), List.eraseDups_cons,
        List.filter_filter, List.append_assoc, List.singleton_append, List.filter_congr apart]

/-- A name has the value it was given last, or the one it had if it was given none. -/
theorem find?_insertAll (entries : Entries β) (pairs : List (String × β)) (name : String) :
    (entries.insertAll pairs).find? name =
      (pairs.reverse.lookup name).or (entries.find? name) := by
  induction pairs generalizing entries with
  | nil => rfl
  | cons pair more ih =>
    obtain ⟨given, value⟩ := pair
    rw [insertAll_cons, ih, find?_insert, List.reverse_cons, List.lookup_append, Option.or_assoc]
    by_cases same : name = given
    · simp [same]
    · simp [same, List.lookup_cons, beq_false_of_ne same]

end Entries

namespace Context

/-- The context with names bound on top, one after the other. -/
def bindAll (context : Context) (bindings : List (String × Value)) : Context :=
  bindings.foldl (fun context binding => context.bind binding.1 binding.2) context

/-- Binding names in turn gives them their values in turn. -/
theorem fields_bindAll (context : Context) (bindings : List (String × Value)) :
    (context.bindAll bindings).fields = context.fields.insertAll bindings := by
  induction bindings generalizing context with
  | nil => rfl
  | cons binding more ih => exact ih (context.bind binding.1 binding.2)

/-- The contexts on the way when names are bound one after the other, from the first to the last. -/
def stages (context : Context) (bindings : List (String × Value)) : List Context :=
  bindings.scanl (fun context binding => context.bind binding.1 binding.2) context

end Context

/-- Maps that can be written to, each at its address. -/
abbrev Store := List (Entries Value)

namespace Store

/-- One more map, with the entries of the map at an address. -/
def copy (store : Store) (address : Nat) : Store := store ++ [store.getD address []]

/-- The map at an address has a name given a value, for everyone who looks there. -/
def write (store : Store) (address : Nat) (name : String) (value : Value) : Store :=
  store.modify address (Entries.insert name value)

/-- Binds a name on top of the map at an address, with the address of the resulting map: a copy
is written to, and what it holds then is copied once more. -/
def bind (store : Store) (address : Nat) (name : String) (value : Value) : Nat × Store :=
  let draft := store.length
  let written := (store.copy address).write draft name value
  (written.length, written.copy draft)

/-- Binds names one on top of the other, with the addresses of all the maps on the way. -/
def bindAll (store : Store) (address : Nat) : List (String × Value) → List Nat × Store
  | [] => ([address], store)
  | (name, value) :: more =>
    let (next, bound) := store.bind address name value
    let (addresses, final) := bindAll bound next more
    (address :: addresses, final)

/-- A binding adds its draft and its result behind the maps that were there. -/
theorem bind_eq {store : Store} {address : Nat} {entries : Entries Value}
    (held : store[address]? = some entries) (name : String) (value : Value) :
    store.bind address name value =
      (store.length + 1, store ++ [entries.insert name value, entries.insert name value]) := by
  have copied : store.copy address = store ++ [entries] := by
    rw [copy, List.getD_eq_getElem?_getD, held, Option.getD_some]
  have written : write (store ++ [entries]) store.length name value =
      store ++ [entries.insert name value] := by
    rw [write, List.modify_eq_set_getElem?, List.getElem?_concat_length]
    simp
  have again : copy (store ++ [entries.insert name value]) store.length =
      store ++ [entries.insert name value, entries.insert name value] := by
    rw [copy, List.getD_eq_getElem?_getD, List.getElem?_concat_length, Option.getD_some,
      List.append_assoc, List.singleton_append]
  rw [bind, copied, written, again, List.length_append, List.length_singleton]

/-- While names are bound, no map changes that was there, and the maps on the way are those of the
contexts on the way. -/
theorem bindAll_spec {store : Store} {address : Nat} {context : Context}
    (held : store[address]? = some context.fields) (bindings : List (String × Value)) :
    store <+: (store.bindAll address bindings).2 ∧
      (store.bindAll address bindings).1.map ((store.bindAll address bindings).2[·]?) =
        (context.stages bindings).map (some ·.fields) := by
  induction bindings generalizing store address context with
  | nil => exact ⟨List.prefix_rfl, by simpa [bindAll, Context.stages] using held⟩
  | cons binding more ih =>
    obtain ⟨name, value⟩ := binding
    have handed : (store ++ [context.fields.insert name value, context.fields.insert name value])[
        store.length + 1]? = some (context.bind name value).fields := by
      rw [List.getElem?_append_right (Nat.le_add_right ..), Nat.add_sub_cancel_left]
      rfl
    obtain ⟨kept, maps⟩ := ih handed
    have whole := (List.prefix_append ..).trans kept
    rw [bindAll, bind_eq held]
    refine ⟨whole, ?_⟩
    obtain ⟨inside, entries⟩ := List.getElem?_eq_some_iff.mp held
    rw [List.map_cons, List.prefix_iff_getElem?.mp whole address inside, entries, Context.stages,
      List.scanl_cons, List.map_cons]
    exact congrArg _ maps

end Store

/-- A map that was filled has each name once, in the order in which the names were first given and
with the value given last. Names bound one on top of the other leave the names of the context where
they are and follow behind them in the order in which they were first bound, a name has the value
bound last or else the one it had, and no name comes to stand twice. The maps that were there are
left as they were by all of this, and so is every context on the way. -/
theorem maps_keep_order (pairs bindings : List (String × Value)) {store : Store} {address : Nat}
    {context : Context} (held : store[address]? = some context.fields) :
    ((Entries.ofPairs pairs).names = (pairs.map (·.1)).eraseDups ∧
      (Entries.ofPairs pairs).Distinct ∧
      ∀ name, (Entries.ofPairs pairs).find? name = pairs.reverse.lookup name) ∧
    ((context.bindAll bindings).fields.names = context.fields.names ++
        ((bindings.map (·.1)).filter (· ∉ context.fields.names)).eraseDups ∧
      (context.fields.Distinct → (context.bindAll bindings).fields.Distinct) ∧
      ∀ name, (context.bindAll bindings).fields.find? name =
        (bindings.reverse.lookup name).or (context.fields.find? name)) ∧
    store <+: (store.bindAll address bindings).2 ∧
    (store.bindAll address bindings).1.map ((store.bindAll address bindings).2[·]?) =
      (context.stages bindings).map (some ·.fields) := by
  refine ⟨⟨?_, Entries.distinct_ofPairs pairs, fun name => ?_⟩, ?_,
    Store.bindAll_spec held bindings⟩
  · have new : (pairs.map (·.1)).filter (· ∉ Entries.names ([] : Entries Value)) =
        pairs.map (·.1) :=
      List.filter_eq_self.mpr fun name _ => decide_eq_true List.not_mem_nil
    have names := Entries.names_insertAll [] pairs
    rwa [new] at names
  · have value := Entries.find?_insertAll [] pairs name
    rwa [Entries.find?, Option.or_none] at value
  · rw [Context.fields_bindAll]
    exact ⟨Entries.names_insertAll _ bindings, fun distinct => distinct.foldl bindings,
      Entries.find?_insertAll _ bindings⟩

/-- A map filled with a name that is given twice; and the bindings of a new name, of a known one and
of the new one again, on top of a map that other maps stand next to. -/
theorem maps_keep_order_when_names_repeat :
    let pairs : List (String × Value) := [("b", .text "1"), ("a", .text "2"), ("b", .list [])]
    let outer : Entries Value := [("x", .text "outer"), ("z", .text "kept")]
    let bindings : List (String × Value) :=
      [("y", .text "1"), ("x", .text "inner"), ("y", .text "2")]
    let store : Store := [[], outer]
    (Entries.ofPairs pairs).names = ["b", "a"] ∧
      (Entries.ofPairs pairs).find? "b" = some (.list []) ∧
      (Context.bindAll ⟨outer⟩ bindings).fields.names = ["x", "z", "y"] ∧
      (Context.bindAll ⟨outer⟩ bindings).fields.Distinct ∧
      (Context.bindAll ⟨outer⟩ bindings).fields.find? "x" = some (.text "inner") ∧
      (Context.bindAll ⟨outer⟩ bindings).fields.find? "y" = some (.text "2") ∧
      store <+: (store.bindAll 1 bindings).2 ∧
      (store.bindAll 1 bindings).1.map ((store.bindAll 1 bindings).2[·]?) =
        [some outer, some (outer ++ [("y", .text "1")]),
          some [("x", .text "inner"), ("z", .text "kept"), ("y", .text "1")],
          some [("x", .text "inner"), ("z", .text "kept"), ("y", .text "2")]] := by
  intro pairs outer bindings store
  have held : store[1]? = some (Context.mk outer).fields := rfl
  obtain ⟨⟨filled, -, given⟩, ⟨names, distinct, values⟩, kept, maps⟩ :=
    maps_keep_order pairs bindings held
  refine ⟨?_, ?_, ?_, ?_, ?_, ?_, kept, ?_⟩
  · rw [filled]
    decide
  · rw [given]
    decide
  · rw [names]
    decide
  · exact distinct (by decide)
  · rw [values]
    decide
  · rw [values]
    decide
  · rw [maps]
    decide

end TextTemplate.Data
