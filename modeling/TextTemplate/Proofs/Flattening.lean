import Mathlib.Data.List.Forall2
import TextTemplate.Proofs.BlockAssembly

/-!
# What is flattened of a construct nested too deep

From the opening tag of a construct nested too deep on, tokens are flattened until as many
constructs were ended as were opened. Only the numbers count: the end of a conditional makes up for
the head of a loop, and what should stand between them does not matter. So what is flattened is the
shortest balanced start of the row, whether the template is well-formed or not, and all of the row
where no start of it is balanced. The end of the text is never flattened.
-/

namespace TextTemplate.Markup

/-- How many constructs are opened. -/
def openers (tokens : List Token) : Nat := tokens.countP (·.lexeme.isOpener)

/-- How many constructs are ended. -/
def enders (tokens : List Token) : Nat := tokens.countP (·.lexeme.isEnder)

/-- As many constructs are opened as are ended, of whatever kind and in whatever order. -/
def TagsBalance (tokens : List Token) : Prop := openers tokens = enders tokens

instance (tokens : List Token) : Decidable (TagsBalance tokens) :=
  inferInstanceAs (Decidable (openers tokens = enders tokens))

/-- The tokens are the shortest start of the row that has a token and is balanced. -/
structure ShortestBalanced (taken row : List Token) : Prop where
  /-- The row starts with them. -/
  start : taken <+: row
  /-- There is a token. -/
  nonempty : taken ≠ []
  /-- As many constructs are opened as are ended. -/
  balanced : TagsBalance taken
  /-- No shorter start does. -/
  shortest : ∀ front, front <+: row → front ≠ [] → TagsBalance front → taken.length ≤ front.length

/-- With so many constructs open in front of them, the tokens never end all that were opened, unless
the last token does. -/
def StaysOpen (surplus : Nat) (tokens : List Token) : Prop :=
  ∀ front, front <+: tokens → front ≠ tokens → enders front < surplus + openers front

/-- A first token is counted on its own. -/
theorem openers_cons (token : Token) (more : List Token) :
    openers (token :: more) = openers [token] + openers more := by
  rw [openers, ← List.singleton_append, List.countP_append]
  rfl

/-- A first token is counted on its own. -/
theorem enders_cons (token : Token) (more : List Token) :
    enders (token :: more) = enders [token] + enders more := by
  rw [enders, ← List.singleton_append, List.countP_append]
  rfl

namespace StaysOpen

variable {surplus after : Nat} {token : Token} {more : List Token}

/-- Where a token follows, a construct is open. -/
theorem head (stays : StaysOpen surplus (token :: more)) : 0 < surplus :=
  stays [] List.nil_prefix (List.cons_ne_nil token more).symm

/-- Behind a token, the others never end all that is open then, unless the last one does. -/
theorem tail (stays : StaysOpen surplus (token :: more))
    (counted : after + enders [token] = surplus + openers [token]) : StaysOpen after more := by
  intro front start shorter
  have longer : token :: front ≠ token :: more := fun same => shorter (List.cons.inj same).2
  have unended := stays (token :: front) (List.cons_prefix_cons.mpr ⟨rfl, start⟩) longer
  rw [openers_cons, enders_cons] at unended
  omega

/-- No tokens leave open what is open. -/
theorem nil (surplus : Nat) : StaysOpen surplus [] := by
  intro front start shorter
  exact absurd (List.prefix_nil.mp start) shorter

/-- In front of tokens that never end all that is open then, a token does not either. -/
theorem cons (unended : 0 < surplus)
    (counted : after + enders [token] = surplus + openers [token]) (stays : StaysOpen after more) :
    StaysOpen surplus (token :: more) := by
  intro front start shorter
  rcases List.prefix_cons_iff.mp start with rfl | ⟨others, rfl, starts⟩
  · exact unended
  · have behind := stays others starts fun same => shorter (by rw [same])
    rw [openers_cons, enders_cons]
    omega

/-- Where a construct is open, a row has a start whose last token ends all that is open, or it
leaves something open up to its end. -/
theorem exists_start {surplus : Nat} (unended : 0 < surplus) (row : List Token) :
    ∃ taken left, row = taken ++ left ∧ StaysOpen surplus taken ∧
      (enders taken = surplus + openers taken ∨
        left = [] ∧ enders taken < surplus + openers taken) := by
  induction row generalizing surplus with
  | nil => exact ⟨[], [], rfl, nil surplus, .inr ⟨rfl, unended⟩⟩
  | cons token more ih =>
    have single : enders [token] ≤ 1 := List.countP_le_length
    obtain ⟨after, counted⟩ : ∃ after, after + enders [token] = surplus + openers [token] :=
      ⟨surplus + openers [token] - enders [token], by omega⟩
    rcases Nat.eq_zero_or_pos after with rfl | still
    · exact ⟨[token], more, rfl, cons unended counted (nil 0), .inl (by omega)⟩
    · obtain ⟨taken, left, rfl, stays, stops⟩ := ih still
      refine ⟨token :: taken, left, rfl, cons unended counted stays, ?_⟩
      rw [openers_cons, enders_cons]
      exact stops.imp (by omega) (And.imp_right (by omega))

end StaysOpen

section

variable {opener : Token} (opens : opener.lexeme.isOpener = true) {taken : List Token}
  (stays : StaysOpen 1 taken)

include opens in
/-- Behind an opening tag, the tags balance where one more construct is ended than is opened. -/
theorem tagsBalance_cons_iff (front : List Token) :
    TagsBalance (opener :: front) ↔ enders front = 1 + openers front := by
  have opened : openers [opener] = 1 := List.countP_eq_length.mpr (by simpa using opens)
  have unended : enders [opener] = 0 := by
    obtain ⟨lexeme, span⟩ := opener
    cases lexeme with
    | forStart _ _ | ifStart _ => rfl
    | endOfText | raw _ | invalid _ | use _ | forEnd | elifTag _ | elseTag | ifEnd => nomatch opens
  rw [TagsBalance, openers_cons, enders_cons, opened, unended, Nat.zero_add, eq_comm]

include opens stays in
/-- Tokens that end the construct opened in front of them with the last one are, together with its
opening tag, the shortest balanced start of a row. -/
theorem shortestBalanced_cons (ended : enders taken = 1 + openers taken) (left : List Token) :
    ShortestBalanced (opener :: taken) (opener :: taken ++ left) where
  start := List.prefix_append ..
  nonempty := List.cons_ne_nil opener taken
  balanced := (tagsBalance_cons_iff opens taken).mpr ended
  shortest := by
    intro front start nonempty balanced
    by_contra shorter
    obtain ⟨others, rfl, starts⟩ := (List.prefix_cons_iff.mp start).resolve_left nonempty
    have inTaken : others <+: taken :=
      List.prefix_of_prefix_length_le starts (List.prefix_append taken left)
        (by simp only [List.length_cons] at shorter; omega)
    have proper : others ≠ taken := by
      rintro rfl
      exact shorter (Nat.le_refl _)
    have unended := stays others inTaken proper
    have counted := (tagsBalance_cons_iff opens others).mp balanced
    omega

include opens stays in
/-- Tokens that never end the construct opened in front of them have, together with its opening tag,
no balanced start. -/
theorem not_tagsBalance_of_staysOpen (unended : enders taken < 1 + openers taken)
    (front : List Token) (start : front <+: opener :: taken) (nonempty : front ≠ []) :
    ¬TagsBalance front := by
  obtain ⟨others, rfl, starts⟩ := (List.prefix_cons_iff.mp start).resolve_left nonempty
  rw [tagsBalance_cons_iff opens]
  by_cases whole : others = taken
  · rw [whole]
    exact Nat.ne_of_lt unended
  · exact Nat.ne_of_lt (stays others starts whole)

end

end TextTemplate.Markup

namespace TextTemplate.Expression

open Text Markup

/-- The node that stands for a token: a leaf for a token outside of all tags of constructs, and an
unexpected token for any other one. -/
inductive StandsFor : Token → Node → Prop
  /-- Literal text. -/
  | raw (text : String) (span : Span) : StandsFor ⟨.raw text, span⟩ (.raw text span)
  /-- A tag that could not be read. -/
  | invalid (text : String) (span : Span) : StandsFor ⟨.invalid text, span⟩ (.invalid text span)
  /-- The place of a value. -/
  | use (path : Path) (span : Span) : StandsFor ⟨.use path, span⟩ (.use path span)
  /-- A tag of a construct. -/
  | unexpected {token : Token} (tag : token.kind ∉ [TokenKind.raw, .invalid, .use]) :
      StandsFor token (.unexpected token)

/-- The node of a token outside of all constructs stands for the token. -/
theorem standsFor_loose (token : Token) : StandsFor token (.loose token) := by
  obtain ⟨lexeme, span⟩ := token
  cases lexeme with
  | raw text => exact .raw text span
  | invalid text => exact .invalid text span
  | use path => exact .use path span
  | endOfText | forStart _ _ | forEnd | ifStart _ | elifTag _ | elseTag | ifEnd =>
    exact .unexpected (by simp [Token.kind, Lexeme.kind])

namespace State

/-- While a construct is flattened, a token quietly adds its node and is counted. -/
theorem quiet_flattening (limit : Int) (frames : List Frame) (run : List Node) {surplus : Nat}
    (unended : 0 < surplus) {token : Token} (inside : token.lexeme ≠ .endOfText) :
    ∃ after, after + enders [token] = surplus + openers [token] ∧
      Quiet limit ⟨frames, run, surplus⟩ [token] ⟨frames, .loose token :: run, after⟩ := by
  obtain ⟨before, rfl⟩ := Nat.exists_eq_add_of_lt unended
  obtain ⟨lexeme, span⟩ := token
  cases lexeme with
  | endOfText => contradiction
  | raw _ | invalid _ | use _ | forStart _ _ | forEnd | ifStart _ | elifTag _ | elseTag | ifEnd =>
    exact ⟨_, rfl, .single rfl rfl⟩

/-- Tokens that never end all that is open, unless the last one does, are flattened quietly. -/
theorem quiet_of_staysOpen (limit : Int) (frames : List Frame) (run : List Node) {surplus : Nat}
    {taken : List Token} (inside : ∀ token ∈ taken, token.lexeme ≠ .endOfText)
    (stays : StaysOpen surplus taken) :
    ∃ after, after + enders taken = surplus + openers taken ∧
      Quiet limit ⟨frames, run, surplus⟩ taken
        ⟨frames, (taken.map .loose).reverse ++ run, after⟩ := by
  induction taken generalizing run surplus with
  | nil => exact ⟨surplus, rfl, .refl limit _⟩
  | cons token more ih =>
    obtain ⟨between, counted, first⟩ :=
      quiet_flattening limit frames run stays.head (inside token (by simp))
    obtain ⟨after, countedAll, others⟩ := ih (.loose token :: run)
      (fun other member => inside other (List.mem_cons_of_mem _ member)) (stays.tail counted)
    refine ⟨after, ?_, ?_⟩
    · rw [openers_cons, enders_cons]
      omega
    · simpa using first.append others

/-- One round of the loop reads one token in front of the end of the text. -/
theorem tryFlatten_cons (limit : Int) (rounds : Nat) (state : State) {token : Token}
    (inside : token.lexeme ≠ .endOfText) (more : List Token) :
    tryFlatten limit (rounds + 1) state (token :: more) =
      if (state.step limit token).flattening then
        tryFlatten limit rounds (state.step limit token) more
      else .ok (state.step limit token, more) :=
  if_neg inside

/-- The loop takes tokens that never end all that is open, unless the last one does, and stops
behind them where that one does or where the text ends. -/
theorem tryFlatten_of_staysOpen (limit : Int) (frames : List Frame) (run : List Node)
    {surplus : Nat} (unended : 0 < surplus) {taken left : List Token}
    (inside : ∀ token ∈ taken, token.lexeme ≠ .endOfText) (stays : StaysOpen surplus taken)
    (stops : enders taken = surplus + openers taken ∨ left = []) {ending : Token}
    (ends : ending.lexeme = .endOfText) {rounds : Nat} (enough : taken.length < rounds) :
    tryFlatten limit rounds ⟨frames, run, surplus⟩ (taken ++ left ++ [ending]) =
      .ok (taken.foldl (step limit) ⟨frames, run, surplus⟩, left ++ [ending]) := by
  induction taken generalizing run surplus rounds with
  | nil =>
    obtain ⟨others, rfl⟩ := Nat.exists_eq_succ_of_ne_zero (Nat.ne_zero_of_lt enough)
    have nothing : left = [] := stops.resolve_left (Nat.ne_of_lt unended)
    rw [nothing]
    exact if_pos ends
  | cons token more ih =>
    obtain ⟨others, rfl⟩ := Nat.exists_eq_succ_of_ne_zero (Nat.ne_zero_of_lt enough)
    obtain ⟨after, counted, reached, -⟩ :=
      quiet_flattening limit frames run unended (inside token (by simp))
    have stepped : step limit ⟨frames, run, surplus⟩ token =
      ⟨frames, .loose token :: run, after⟩ := reached
    rw [openers_cons, enders_cons] at stops
    rw [List.cons_append, List.cons_append, tryFlatten_cons _ _ _ (inside token (by simp)),
      List.foldl_cons, stepped]
    rcases Nat.eq_zero_or_pos after with rfl | still
    · -- With nothing left open, no token can follow that the loop would take.
      cases more with
      | nil => rfl
      | cons next _ => exact absurd (stays.tail counted).head (Nat.lt_irrefl 0)
    · rw [flattening, if_pos (decide_eq_true still)]
      exact ih _ still (fun other member => inside other (List.mem_cons_of_mem _ member))
        (stays.tail counted) (stops.imp_left (by omega)) (Nat.lt_of_succ_lt_succ enough)

end State

/-- From the opening tag of a construct nested too deep on, exactly the shortest balanced start of
the row is flattened, or all of the row where no start of it is balanced, whatever the tokens are.
Every token that is taken adds the node that stands for it, in order, and nothing else changes; the
only notice is that on the opening tag. The loop that reads these tokens always stops, behind them
and in front of the end of the text. -/
theorem flattens_shortest_balanced {limit : Int} {frames : List Frame}
    (deep : limit ≤ frames.length) (run : List Node) {opener : Token}
    (opens : opener.lexeme.isOpener = true) {more : List Token}
    (inside : ∀ token ∈ more, token.lexeme ≠ .endOfText) {ending : Token}
    (ends : ending.lexeme = .endOfText) :
    ∃ taken left nodes surplus, opener :: more = taken ++ left ∧
      (ShortestBalanced taken (opener :: more) ∧ surplus = 0 ∨
        (∀ front, front <+: opener :: more → front ≠ [] → ¬TagsBalance front) ∧ left = [] ∧
          0 < surplus) ∧
      List.Forall₂ StandsFor taken nodes ∧
      Reads limit ⟨frames, run, 0⟩ taken ⟨frames, nodes.reverse ++ run, surplus⟩
        [.tooDeep limit opener] ∧
      ∀ rounds, taken.length < rounds →
        State.tryFlatten limit rounds ⟨frames, run, 0⟩ (opener :: more ++ [ending]) =
          .ok (⟨frames, nodes.reverse ++ run, surplus⟩, left ++ [ending]) := by
  obtain ⟨taken, left, rfl, stays, stops⟩ := StaysOpen.exists_start Nat.one_pos more
  have insideTaken : ∀ token ∈ taken, token.lexeme ≠ .endOfText :=
    fun token member => inside token (List.mem_append_left left member)
  obtain ⟨frame, framed⟩ := frameOf?_of_isOpener opens
  have first := reads_tooDeep framed deep run
  obtain ⟨surplus, counted, others⟩ :=
    State.quiet_of_staysOpen limit frames (.loose opener :: run) insideTaken stays
  have stands : List.Forall₂ StandsFor (opener :: taken) ((opener :: taken).map .loose) :=
    List.forall₂_map_right_iff.mpr (List.forall₂_same.mpr fun token _ => standsFor_loose token)
  have read : Reads limit ⟨frames, run, 0⟩ (opener :: taken)
      ⟨frames, ((opener :: taken).map .loose).reverse ++ run, surplus⟩ [.tooDeep limit opener] := by
    simpa using first.append others
  refine ⟨opener :: taken, left, _, surplus, rfl, ?_, stands, read, ?_⟩
  · rcases stops with ended | ⟨rfl, unended⟩
    · exact .inl ⟨shortestBalanced_cons opens stays ended left, by omega⟩
    · rw [List.append_nil]
      exact .inr ⟨not_tagsBalance_of_staysOpen opens stays unended, rfl, by omega⟩
  · intro rounds enough
    obtain ⟨rest, rfl⟩ := Nat.exists_eq_succ_of_ne_zero (Nat.ne_zero_of_lt enough)
    have insideOpener : opener.lexeme ≠ .endOfText := by
      intro same
      rw [same] at opens
      contradiction
    have stepped : State.step limit ⟨frames, run, 0⟩ opener =
      ⟨frames, .loose opener :: run, 1⟩ := first.1
    have looped := State.tryFlatten_of_staysOpen limit frames (.loose opener :: run) Nat.one_pos
      insideTaken stays (stops.imp_right And.left) ends (Nat.lt_of_succ_lt_succ enough)
    rw [← stepped, ← List.foldl_cons, read.1] at looped
    rw [List.cons_append, State.tryFlatten_cons _ _ _ insideOpener, stepped, State.flattening,
      if_pos (decide_eq_true Nat.one_pos), ← stepped]
    exact looped

/-- A conditional in a loop, nested too deep and ended by the end tag of a loop, is flattened up to
that tag, and the next tag is left to end the loop around it. -/
theorem flattens_conditional_up_to_loop_end :
    let span : Span := .empty .start
    let frames : List Frame := [.loop [] ⟨"x", span⟩ ⟨"xs", [], span⟩ span]
    let path : Path := ⟨"x", [], span⟩
    let opener : Token := ⟨.ifStart path, span⟩
    let more : List Token := [⟨.use path, span⟩, ⟨.elseTag, span⟩, ⟨.forEnd, span⟩, ⟨.forEnd, span⟩]
    let ending : Token := ⟨.endOfText, span⟩
    ShortestBalanced (opener :: more.take 3) (opener :: more) ∧
      State.tryFlatten 1 5 ⟨frames, [], 0⟩ (opener :: more ++ [ending]) =
        .ok (⟨frames, [.unexpected ⟨.forEnd, span⟩, .unexpected ⟨.elseTag, span⟩, .use path span,
          .unexpected opener], 0⟩, [⟨.forEnd, span⟩, ending]) := by
  intro span frames path opener more ending
  obtain ⟨taken, left, nodes, surplus, split, result, stands, read, looped⟩ :=
    flattens_shortest_balanced (by decide : (1 : Int) ≤ frames.length) []
      (by decide : opener.lexeme.isOpener = true)
      (by decide : ∀ token ∈ more, token.lexeme ≠ .endOfText)
      (by decide : ending.lexeme = .endOfText)
  have start : opener :: more.take 3 <+: opener :: more := by decide
  have nonempty : opener :: more.take 3 ≠ [] := List.cons_ne_nil opener _
  have balanced : TagsBalance (opener :: more.take 3) := by decide
  obtain ⟨shortest, rfl⟩ : ShortestBalanced taken (opener :: more) ∧ surplus = 0 := by
    rcases result with shortest | ⟨unbalanced, -, -⟩
    · exact shortest
    · exact absurd balanced (unbalanced _ start nonempty)
  have whole : taken = opener :: more.take 3 := by
    have short : taken.length < 5 :=
      Nat.lt_succ_of_le (shortest.shortest _ start nonempty balanced)
    have others : ∀ length < 5, length ≠ 0 → TagsBalance ((opener :: more).take length) →
        (opener :: more).take length = opener :: more.take 3 := by decide
    have prefixed := List.prefix_iff_eq_take.mp shortest.start
    have filled : taken.length ≠ 0 := mt List.length_eq_zero_iff.mp shortest.nonempty
    rw [prefixed]
    exact others taken.length short filled (prefixed ▸ shortest.balanced)
  subst whole
  have parted : (opener :: more.take 3) ++ [⟨.forEnd, span⟩] = (opener :: more.take 3) ++ left :=
    split
  obtain rfl := List.append_cancel_left parted
  rw [← read.1] at looped
  exact ⟨shortest, looped 5 (by decide)⟩

end TextTemplate.Expression
