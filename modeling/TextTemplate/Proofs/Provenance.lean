import TextTemplate.Proofs.ContainedValues
import TextTemplate.Proofs.Visits

/-!
# Where everything that is left comes from

All that a context leaves of an expression comes from the expression, apart from the texts that are
filled in. These are texts in the context or names in its maps, however deep the loops are nested
that lead to them. There is one exception: a loop over a map binds records with a key and a value,
and inside a loop over such a record the names of its fields are shown, which the context need not
hold.
-/

namespace TextTemplate

open Data Evaluation Expression Markup Text

namespace Data

namespace Value

/-- The value is a text, or the text is a name of the map that it is. -/
def Spells (text : String) (value : Value) : Prop := value = .text text ∨ text ∈ value.names

instance (text : String) (value : Value) : Decidable (value.Spells text) :=
  inferInstanceAs (Decidable (_ ∨ _))

variable {admitted wider : String → Prop} {value inner item : Value}

/-- All texts inside a value, and all names in the maps inside it, are admitted. -/
def Within (admitted : String → Prop) (value : Value) : Prop :=
  ∀ inner ∈ value.inside, ∀ text, inner.Spells text → admitted text

/-- What is inside a value has only texts and names that the value has. -/
theorem Within.inside (within : value.Within admitted) (member : inner ∈ value.inside) :
    inner.Within admitted :=
  fun deeper own => within deeper (mem_inside_trans member own)

/-- When more is admitted, a value still has nothing else. -/
theorem Within.mono (within : value.Within admitted) (more : ∀ text, admitted text → wider text) :
    value.Within wider :=
  fun inner member text spells => more text (within inner member text spells)

/-- A text has nothing but itself. -/
theorem within_text {content : String} : (text content).Within admitted ↔ admitted content := by
  constructor
  · intro within
    exact within _ (mem_inside_self _) content (.inl rfl)
  · intro known inner member name spells
    obtain rfl := List.mem_singleton.mp member
    rcases spells with same | named
    · rwa [← Value.text.inj same]
    · nomatch named

/-- What loops bind as long as they find nothing but what is admitted: values of which all texts and
names are admitted, and records of an admitted name and such a value. -/
inductive Bound (admitted : String → Prop) : Value → Prop
  /-- A value with nothing but admitted texts and names. -/
  | within {value : Value} : value.Within admitted → Bound admitted value
  /-- The record of an entry. -/
  | record {name : String} {item : Value} : admitted name → item.Within admitted →
      Bound admitted (entryRecord (name, item))

/-- When more is admitted, a value is still as loops bind it. -/
theorem Bound.mono (bound : value.Bound admitted) (more : ∀ text, admitted text → wider text) :
    value.Bound wider := by
  cases bound with
  | within own => exact .within (own.mono more)
  | record known own => exact .record (more _ known) (own.mono more)

/-- What is inside a value that a loop binds is like what loops bind. -/
theorem Bound.inside (bound : value.Bound admitted) (member : inner ∈ value.inside) :
    inner.Bound admitted := by
  cases bound with
  | within own => exact .within (own.inside member)
  | record known own =>
    rcases mem_inside_map.mp member with rfl | ⟨entry, field, deeper⟩
    · exact .record known own
    · simp only [List.mem_cons, List.not_mem_nil, or_false] at field
      have text := within_text.mpr known
      rcases field with rfl | rfl
      · exact .within (text.inside deeper)
      · exact .within (own.inside deeper)

/-- A text that a loop binds is admitted. -/
theorem Bound.text {content : String} (bound : (text content).Bound admitted) :
    admitted content := by
  cases bound with
  | within own => exact within_text.mp own

/-- A loop over a value with nothing but admitted texts and names binds what loops bind. -/
theorem Within.loopItem {items : List Value} (within : value.Within admitted)
    (looped : value.loopItems? = some items) (member : item ∈ items) : item.Bound admitted := by
  cases value with
  | text content => nomatch looped
  | list own =>
    obtain rfl := Option.some.inj looped
    have inside : item ∈ (list own).inside := mem_inside_list.mpr (.inr ⟨item, member,
      mem_inside_self item⟩)
    exact .within (within.inside inside)
  | map fields =>
    obtain rfl := Option.some.inj looped
    obtain ⟨entry, field, rfl⟩ := List.mem_map.mp member
    have name : entry.1 ∈ (map fields).names := List.mem_map_of_mem field
    have inside : entry.2 ∈ (map fields).inside := mem_inside_map.mpr (.inr ⟨entry, field,
      mem_inside_self entry.2⟩)
    have known : admitted entry.1 := within _ (mem_inside_self _) _ (.inr name)
    exact .record known (within.inside inside)

/-- A loop over a value that a loop binds binds such values again. Over a record it binds records of
the names of its fields, so these have to be admitted, unless all is inside the record that is. -/
theorem Bound.loopItem {items : List Value} (bound : value.Bound admitted)
    (fields : ∀ entry, value = entryRecord entry →
      value.Within admitted ∨ admitted "key" ∧ admitted "value")
    (looped : value.loopItems? = some items) (member : item ∈ items) : item.Bound admitted := by
  cases bound with
  | within own => exact own.loopItem looped member
  | @record name inner known own =>
    rcases fields _ rfl with all | ⟨key, value⟩
    · exact all.loopItem looped member
    · -- The record has two fields, and a record is bound for each of them.
      obtain rfl := Option.some.inj looped
      simp only [List.map_cons, List.map_nil, List.mem_cons, List.not_mem_nil, or_false] at member
      rcases member with rfl | rfl
      · exact .record key (within_text.mpr known)
      · exact .record value own

end Value

namespace Context

/-- The values in a context: those bound to its names and all values inside them. -/
def contents (context : Context) : List Value := Value.fieldsInside context.fields

/-- The text is a text in the context or a name of a map in it. -/
def Supplies (context : Context) (text : String) : Prop :=
  ∃ inner ∈ context.contents, inner.Spells text

instance (context : Context) (text : String) : Decidable (context.Supplies text) :=
  inferInstanceAs (Decidable (∃ inner ∈ context.contents, _))

/-- What is bound in a context, and what is inside of it, is in the context. -/
theorem mem_contents_iff {context : Context} {inner : Value} :
    inner ∈ context.contents ↔ ∃ entry ∈ context.fields, inner ∈ entry.2.inside := by
  rw [contents, Value.fieldsInside_eq_flatMap, List.mem_flatMap]

/-- A value in a context has nothing but what the context supplies. -/
theorem within_supplies {context : Context} {value : Value} (member : value ∈ context.contents) :
    value.Within context.Supplies := by
  obtain ⟨entry, field, own⟩ := mem_contents_iff.mp member
  intro inner deeper text spells
  have known : inner ∈ context.contents :=
    mem_contents_iff.mpr ⟨entry, field, Value.mem_inside_trans own deeper⟩
  exact ⟨inner, known, spells⟩

/-- Everything that is bound is as loops bind it. -/
def Grounded (admitted : String → Prop) (context : Context) : Prop :=
  ∀ entry ∈ context.fields, entry.2.Bound admitted

variable {admitted wider : String → Prop} {context : Context}

/-- When more is admitted, everything is still as loops bind it. -/
theorem Grounded.mono (grounded : context.Grounded admitted)
    (more : ∀ text, admitted text → wider text) : context.Grounded wider :=
  fun entry member => (grounded entry member).mono more

/-- Binding what a loop binds keeps everything as loops bind it. -/
theorem Grounded.bind (grounded : context.Grounded admitted) (name : String) {item : Value}
    (bound : item.Bound admitted) : (context.bind name item).Grounded admitted := by
  intro entry member
  rcases Entries.mem_insert member with rfl | known
  · exact bound
  · exact grounded entry known

/-- A path leads to something that is as loops bind it. -/
theorem Grounded.resolve? (grounded : context.Grounded admitted) {path : Path} {value : Value}
    (found : context.resolve? path.parts = some value) : value.Bound admitted := by
  rw [resolve?_path] at found
  obtain ⟨start, bound, led⟩ := Option.bind_eq_some_iff.mp found
  have member : (path.root, start) ∈ context.fields := Entries.mem_of_find? bound
  have inside : value ∈ start.inside := Value.mem_inside_of_resolve? led
  exact (grounded _ member).inside inside

end Context

end Data

namespace Evaluation

/-- The conditions in front of one that is unknown fail. -/
theorem fails_of_decision_undecided {context : Context} {paths : List Path} {index : Nat}
    (unknown : decision context paths = .undecided index) :
    ∀ path ∈ paths.take index, Fails context path := by
  induction paths generalizing index with
  | nil => nomatch unknown
  | cons path more ih =>
    cases found : context.resolve? path.parts with
    | none =>
      rw [decision_of_unknown found] at unknown
      obtain rfl := Decision.undecided.inj unknown
      exact List.forall_mem_nil _
    | some value =>
      by_cases holds : value.truthy
      · rw [decision_of_holds found holds] at unknown
        nomatch unknown
      · rw [decision_of_fails found holds] at unknown
        obtain ⟨before, later, rfl⟩ := Decision.next_eq_undecided.mp unknown
        have own : Fails context path := ⟨value, found, Bool.eq_false_iff.mpr holds⟩
        exact List.forall_mem_cons.mpr ⟨own, ih later⟩

end Evaluation

namespace Expression.Node

/-- The visit is one of a loop, and this is the value found at the path of the loop. -/
def Visit.LoopsOver (value : Value) (visit : Visit) : Prop :=
  ∃ var path opening closing body, visit.node = .loop var path opening closing body ∧
    visit.context.resolve? path.parts = some value

/-- A loop over anything but a text keeps nothing of itself. -/
theorem Visit.LoopsOver.kept_eq_nil {value : Value} {visit : Visit} (loops : visit.LoopsOver value)
    (proper : value.kind ≠ .text) : visit.kept = [] := by
  obtain ⟨visited, seen⟩ := visit
  obtain ⟨var, path, opening, closing, body, same, led⟩ := loops
  obtain rfl : visited = .loop var path opening closing body := same
  rw [Visit.kept, led, Option.bind_some]
  cases value with
  | text content => exact absurd rfl proper
  | list _ | map _ => rfl

variable {node : Node} {context : Context}

/-- The visit is made inside a loop over the record of an entry, and the context does not hold this
record itself. -/
def InRecordLoop (node : Node) (context : Context) (visit : Visit) : Prop :=
  ∃ outer ∈ node.visits context, ∃ entry, outer.LoopsOver (Value.entryRecord entry) ∧
    Value.entryRecord entry ∉ context.contents ∧ Relation.ReflTransGen Visit.Leads outer visit

/-- The text may be filled in by the visit: the context supplies it, or it is the name of a field of
a record, and the visit is made inside a loop over one. -/
def Shows (node : Node) (context : Context) (visit : Visit) (text : String) : Prop :=
  context.Supplies text ∨ node.InRecordLoop context visit ∧ text ∈ ["key", "value"]

/-- What may be filled in by a visit may be filled in by those that it leads to. -/
theorem Shows.onward {visit next : Visit} {text : String} (shows : node.Shows context visit text)
    (leads : visit.Leads next) : node.Shows context next text := by
  rcases shows with supplied | ⟨⟨outer, member, entry, loops, foreign, led⟩, named⟩
  · exact .inl supplied
  · exact .inr ⟨⟨outer, member, entry, loops, foreign, led.tail leads⟩, named⟩

/-- Everything that is bound under the context of a visit is as loops bind it. -/
theorem grounded_of_visit : ∀ visit ∈ node.visits context,
    visit.context.Grounded (node.Shows context visit) := by
  have supplied (visit : Visit) (value : Value) (member : value ∈ context.contents) :
      value.Within (node.Shows context visit) :=
    (Context.within_supplies member).mono fun _ => .inl
  refine forall_mem_visits (fun visit => visit.context.Grounded (node.Shows context visit)) ?_
    fun visit member next leads grounded => ?_
  · intro entry field
    have known : entry.2 ∈ context.contents :=
      Context.mem_contents_iff.mpr ⟨entry, field, Value.mem_inside_self _⟩
    exact .within (supplied _ _ known)
  · have kept := grounded.mono fun _ shows => shows.onward leads
    -- Only a loop binds anything, and what it goes over was bound by loops or is in the context.
    cases leads with
    | @item var path opening closing body seen _ item found known =>
      obtain ⟨value, led, looped⟩ := Option.bind_eq_some_iff.mp found
      have loops : Visit.LoopsOver value ⟨.loop var path opening closing body, seen⟩ :=
        ⟨var, path, opening, closing, body, rfl, led⟩
      refine kept.bind var.text ((kept.resolve? led).loopItem ?_ looped known)
      rintro entry rfl
      by_cases held : Value.entryRecord entry ∈ context.contents
      · exact .inl (supplied _ _ held)
      · have inner : node.InRecordLoop context ⟨body, seen.bind var.text item⟩ :=
          ⟨_, member, entry, loops, held, .single (.item found known)⟩
        exact .inr ⟨.inr ⟨inner, by simp⟩, .inr ⟨inner, by simp⟩⟩
    | branch _ _ | alternative _ | child _ => exact kept

/-- Where something that is left comes from: it is in the expression, it is the place of a value
there with a text filled in, or a conditional there without first branches whose conditions fail.
Nothing is said about sequences. -/
def Origin (node : Node) (context : Context) : Node → Prop
  | .raw text span => .raw text span ∈ node.subnodes ∨ ∃ path, .use path span ∈ node.subnodes ∧
      ∃ visit ∈ node.visits context, visit.node = .use path span ∧ node.Shows context visit text
  | .invalid text span => .invalid text span ∈ node.subnodes
  | .use path span => .use path span ∈ node.subnodes
  | .unexpected token => .unexpected token ∈ node.subnodes
  | .loop var path opening closing body => .loop var path opening closing body ∈ node.subnodes
  | .choice branches otherwise closing => ∃ earlier : List (Branch Node),
      let whole := choice (earlier ++ branches) otherwise closing
      whole ∈ node.subnodes ∧
        whole.fromBranch? earlier.length = some (.ok (.choice branches otherwise closing)) ∧
        (earlier = [] ∨ ∃ visit ∈ node.visits context, visit.node = whole ∧
          ∀ branch ∈ earlier, Fails visit.context branch.path)
  | .concat _ => True

/-- What is in the expression comes from there. -/
theorem origin_of_mem {inner : Node} (member : inner ∈ node.subnodes) :
    node.Origin context inner := by
  cases inner with
  | raw _ _ => exact .inl member
  | invalid _ _ | use _ _ | unexpected _ | loop _ _ _ _ _ => exact member
  | choice branches otherwise closing =>
    have whole : (choice branches otherwise closing).fromBranch? 0 =
        some (.ok (choice branches otherwise closing)) := by simp [fromBranch?]
    exact ⟨[], member, whole, .inl rfl⟩
  | concat _ => trivial

/-- The branches in front of the one where a conditional is undecided have conditions that fail. -/
theorem fails_of_undecided {branches : List (Branch Node)} {index : Nat}
    (unknown : decision context (branches.map (·.path)) = .undecided index) :
    ∀ branch ∈ branches.take index, Fails context branch.path := by
  intro branch front
  have condition : branch.path ∈ (branches.map (·.path)).take index := by
    rw [← List.map_take]
    exact List.mem_map_of_mem front
  exact fails_of_decision_undecided unknown _ condition

/-- In front of any of its branches, a conditional may be cut. -/
theorem fromBranch?_of_lt {branches : List (Branch Node)} {otherwise : Option (Alternative Node)}
    {closing : Span} {index : Nat} (inside : index < branches.length) :
    (choice branches otherwise closing).fromBranch? index =
      some (.ok (choice (branches.drop index) otherwise closing)) := by
  rw [fromBranch?, if_pos (.inr inside)]

/-- What is inside a conditional without its first branches is inside the conditional, apart from
what is left of the conditional itself. -/
theorem mem_subnodes_of_drop {branches : List (Branch Node)}
    {otherwise : Option (Alternative Node)} {closing : Span} {index : Nat} {inner : Node}
    (member : inner ∈ (choice (branches.drop index) otherwise closing).subnodes) :
    inner = choice (branches.drop index) otherwise closing ∨
      inner ∈ (choice branches otherwise closing).subnodes := by
  rw [subnodes_choice, List.mem_cons, List.mem_append, List.mem_flatMap] at member
  rw [subnodes_choice, List.mem_cons, List.mem_append, List.mem_flatMap]
  rcases member with same | ⟨branch, left, inside⟩ | inside
  · exact .inl same
  · exact .inr (.inr (.inl ⟨branch, List.mem_of_mem_drop left, inside⟩))
  · exact .inr (.inr (.inr inside))

/-- What a visit keeps comes from the expression. -/
theorem origin_of_kept {visit : Visit} (member : visit ∈ node.visits context) {inner : Node}
    (kept : inner ∈ visit.kept) : node.Origin context inner := by
  have inside (own : inner ∈ visit.node.subnodes) : node.Origin context inner :=
    origin_of_mem (mem_subnodes_of_visit member own)
  obtain ⟨visited, seen⟩ := visit
  cases visited with
  | raw _ _ | invalid _ _ | unexpected _ => exact inside kept
  | use path span =>
    rw [Visit.kept] at kept
    split at kept
    · next content found =>
      obtain rfl := List.mem_singleton.mp kept
      have place : .use path span ∈ node.subnodes :=
        mem_subnodes_of_visit member (mem_subnodes_self _)
      have shown : node.Shows context ⟨.use path span, seen⟩ content :=
        ((grounded_of_visit _ member).resolve? found).text
      exact .inr ⟨path, place, _, member, rfl, shown⟩
    · exact inside kept
  | loop var path opening closing body =>
    rw [Visit.kept] at kept
    split at kept
    · exact absurd kept List.not_mem_nil
    · exact inside kept
  | choice branches otherwise closing =>
    rw [Visit.kept] at kept
    split at kept
    · next index unknown =>
      rcases mem_subnodes_of_drop kept with rfl | own
      · have left : index < branches.length := by
          simpa only [List.length_map] using lt_of_decision_undecided unknown
        have taken : (branches.take index).length = index := List.length_take_of_le left.le
        have whole : .choice branches otherwise closing ∈ node.subnodes :=
          mem_subnodes_of_visit member (mem_subnodes_self _)
        have fails : ∀ branch ∈ branches.take index, Fails seen branch.path :=
          fails_of_undecided unknown
        refine ⟨branches.take index, ?_⟩
        rw [List.take_append_drop, taken]
        exact ⟨whole, fromBranch?_of_lt left, .inr ⟨_, member, rfl, fails⟩⟩
      · exact inside own
    · exact absurd kept List.not_mem_nil
    · exact absurd kept List.not_mem_nil
  | concat _ => exact absurd kept List.not_mem_nil

/-- What is left and is no sequence is kept by a visit. -/
theorem kept_of_mem_residual {inner : Node} (member : inner ∈ (node.residual context).subnodes)
    (proper : inner.kind ≠ .concat) : ∃ visit ∈ node.visits context, inner ∈ visit.kept := by
  have left : inner ∈ unjoined (node.residual context).subnodes :=
    List.mem_filter.mpr ⟨member, decide_eq_true proper⟩
  rw [unjoined_subnodes_residual] at left
  exact List.mem_flatMap.mp (List.mem_filter.mp left).1

/-- Everything that is left comes from the expression. The places of values, loops, invalid tags and
unexpected tokens that are left are in it as they are, conditionals are too or have lost branches
with conditions that fail, and a text that is not in it stands in the place of a value, and is
supplied by the context or, in a loop over a record, names a field of a record. All this is left in
the order in which it is visited, where every visit is one of an expression inside: a loop over
anything but a text leaves nothing of itself in its place, and the place of a value that has a text
leaves the text. -/
theorem residual_provenance (node : Node) (context : Context) :
    (∀ inner ∈ (node.residual context).subnodes, node.Origin context inner) ∧
    unjoined (node.residual context).subnodes =
      unjoined ((node.visits context).flatMap Visit.kept) ∧
    ∀ visit ∈ node.visits context, visit.node ∈ node.subnodes ∧
      (∀ value, visit.LoopsOver value → value.kind ≠ .text → visit.kept = []) ∧
      ∀ path span text, visit.node = .use path span →
        visit.context.resolve? path.parts = some (.text text) → visit.kept = [.raw text span] := by
  refine ⟨fun inner member => ?_, unjoined_subnodes_residual node context,
    fun visit member => ⟨mem_subnodes_of_visit member (mem_subnodes_self _), ?_, ?_⟩⟩
  · by_cases sequence : inner.kind = .concat
    · cases inner with
      | concat children => trivial
      | _ => nomatch sequence
    · obtain ⟨visit, visited, kept⟩ := kept_of_mem_residual member sequence
      exact origin_of_kept visited kept
  · exact fun value loops proper => loops.kept_eq_nil proper
  · intro path span text place led
    obtain ⟨visited, seen⟩ := visit
    obtain rfl : visited = .use path span := place
    rw [Visit.kept, led]

/-- A loop is unrolled. In its body a value gets its text, and a conditional of which the first
condition fails and the second one is unknown is left without its first branch. -/
theorem residual_provenance_of_cut_conditional :
    let place (offset : Nat) : Span := .empty ⟨offset, 1, offset + 1⟩
    let note : Node := .use ⟨"m", ["n"], place 0⟩ (place 1)
    let second : Branch Node := ⟨⟨"m", ["b"], place 2⟩, place 3, note⟩
    let branches := [⟨⟨"m", ["a"], place 4⟩, place 5, .raw "x" (place 6)⟩, second]
    let node : Node := .loop ⟨"m", place 7⟩ ⟨"ms", [], place 8⟩ (place 9) (place 10)
      (.concat [note, .choice branches none (place 11)])
    let member : Value := .map [("a", .text ""), ("n", .text "1")]
    let context : Context := ⟨[("ms", .list [member])]⟩
    ((Visit.LoopsOver (.list [member]) ⟨node, context⟩ ∧ (Value.list [member]).kind ≠ .text) ∧
      Visit.kept ⟨node, context⟩ = []) ∧
    (⟨note, context.bind "m" member⟩ ∈ node.visits context ∧
      Visit.kept ⟨note, context.bind "m" member⟩ = [.raw "1" (place 1)]) ∧
    .choice [second] none (place 11) ∈ (node.residual context).subnodes ∧
    node.Origin context (.choice [second] none (place 11)) := by
  intro place note second branches node member context
  obtain ⟨origin, -, visited⟩ := residual_provenance node context
  have loops : Visit.LoopsOver (.list [member]) ⟨node, context⟩ :=
    ⟨_, _, _, _, _, rfl, by decide +kernel⟩
  have proper : (Value.list [member]).kind ≠ .text := by decide
  have whole := visited ⟨node, context⟩ (mem_visits_self _ _)
  have inner : ⟨note, context.bind "m" member⟩ ∈ node.visits context := by decide +kernel
  have left : .choice [second] none (place 11) ∈ (node.residual context).subnodes := by
    decide +kernel
  exact ⟨⟨⟨loops, proper⟩, whole.2.1 _ loops proper⟩,
    ⟨inner, (visited _ inner).2.2 _ _ _ rfl (by decide +kernel)⟩, left, origin _ left⟩

/-- A loop over the record of an entry shows the names of its fields, which are not in the
context. -/
theorem residual_shows_field_names :
    let text := statement "for e in m" ++ statement "for f in e" ++ interpolation "f.key" ++
      statement "endfor" ++ statement "endfor"
    let node := parse defaultNesting text
    let context : Context := ⟨[("m", .map [("a", .text "1")])]⟩
    ∃ span, .raw "key" span ∈ (node.residual context).subnodes ∧
      .raw "key" span ∉ node.subnodes ∧ ¬context.Supplies "key" ∧
      "key" ∉ Entries.names context.fields := by
  refine ⟨⟨interpolation "f.key", ⟨32, 1, 33⟩, ⟨43, 1, 44⟩⟩, ?_⟩
  decide +kernel

end Expression.Node

end TextTemplate
