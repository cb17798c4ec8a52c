import TextTemplate.Proofs.BlockRecovery

/-!
# Limits of nesting that are not reached

The limit is asked for only where a construct is opened. As long as no warning says that there was
no room, a wider limit gives the same answer every time, so the whole assembly is the same. This
holds of any tokens, however many constructs are left open or taken apart on the way.

A warning takes more opening tags than the limit admits. More opening tags alone do not make a
warning, because constructs may stand behind each other.
-/

namespace TextTemplate.Markup

/-- The kinds of tokens that open a construct. -/
def TokenKind.openers : List TokenKind := [.forStart, .ifStart]

/-- The number of tokens that open a construct. -/
def openings (tokens : List Token) : Nat := tokens.countP (·.kind ∈ TokenKind.openers)

/-- An opening token is counted in front of the others. -/
theorem openings_cons (token : Token) (more : List Token) :
    openings (token :: more) =
      openings more + if token.kind ∈ TokenKind.openers then 1 else 0 := by
  simp [openings, List.countP_cons]

end TextTemplate.Markup

namespace TextTemplate.Expression

open Markup

/-- A token that puts a frame on the stack is of a kind that opens a construct. -/
theorem kind_of_frameOf {token : Token} {frame : List Node → Frame}
    (opens : frameOf? token = some frame) : token.kind ∈ TokenKind.openers := by
  obtain ⟨var, path, span, rfl, -⟩ | ⟨path, span, rfl, -⟩ := opening_cases opens
  · simp [TokenKind.openers, Token.kind, Lexeme.kind]
  · simp [TokenKind.openers, Token.kind, Lexeme.kind]

namespace State

variable {limit wider : Int} {state : State}

/-- What has room within a limit has room within a wider one. -/
theorem enter_within (within : limit ≤ wider) (room : state.tooDeep limit = false) :
    state.tooDeep wider = false ∧
      ∀ token frame, state.enter wider token frame = state.enter limit token frame := by
  have shallow : state.tooDeep wider = false := by
    simp only [tooDeep, decide_eq_false_iff_not] at room ⊢
    omega
  refine ⟨shallow, fun token frame => ?_⟩
  rw [enter, enter, room, shallow]

/-- A token that is read without a warning does the same within a wider limit, and there is the same
to say about it. -/
theorem step_within (within : limit ≤ wider) {token : Token}
    (calm : Calm (state.notices limit token)) :
    state.step wider token = state.step limit token ∧
      state.notices wider token = state.notices limit token := by
  by_cases ended : token.lexeme = .endOfText
  · simp only [step, notices, if_pos ended, and_self]
  · by_cases flat : state.flattening
    · simp only [step, notices, if_neg ended, if_pos flat, and_self]
    · obtain ⟨lexeme, span⟩ := token
      simp only [step, notices, if_neg ended, if_neg flat] at calm ⊢
      -- The limit is asked for by the two opening tags only.
      cases lexeme with
      | endOfText => contradiction
      | raw _ | invalid _ | use _ | forEnd | elifTag _ | elseTag | ifEnd => exact ⟨rfl, rfl⟩
      | forStart _ _ | ifStart _ =>
        dsimp only at calm ⊢
        have room : state.tooDeep limit = false := by
          refine Bool.eq_false_iff.mpr fun deep => ?_
          rw [if_pos deep] at calm
          exact not_calm_tooDeep _ _ calm
        obtain ⟨shallow, entered⟩ := enter_within within room
        simp only [entered, room, shallow, Bool.false_eq_true, if_false, and_self]

/-- Tokens that are read without a warning do the same within a wider limit. -/
theorem foldl_within (within : limit ≤ wider) {read : List Token}
    (calm : Calm (allNotices limit state read)) :
    read.foldl (step wider) state = read.foldl (step limit) state := by
  induction read generalizing state with
  | nil => rfl
  | cons token more ih =>
    rw [allNotices, calm_append] at calm
    rw [List.foldl_cons, List.foldl_cons, (step_within within calm.1).1]
    exact ih calm.2

/-- Tokens that are read without a warning leave the same records within a wider limit. -/
theorem assemblyRecords_within (within : limit ≤ wider) {read : List (Reading Token)}
    (calm : Calm (allNotices limit state (read.map (·.value)))) :
    Log.assemblyRecords wider state read = Log.assemblyRecords limit state read := by
  induction read generalizing state with
  | nil => rfl
  | cons reading more ih =>
    rw [List.map_cons, allNotices, calm_append] at calm
    obtain ⟨stepped, noticed⟩ := step_within within calm.1
    simp only [Log.assemblyRecords, stepped, noticed, ih calm.2]

/-- A token opens one construct more at most, and none unless it is an opening tag. -/
theorem length_frames_le {state' : State} {token : Token} {notices : List Notice}
    (moved : Move limit state token state' notices) :
    state'.frames.length ≤
      state.frames.length + if token.kind ∈ TokenKind.openers then 1 else 0 := by
  cases moved with
  | opened frames run opens room =>
    rw [if_pos (kind_of_frameOf opens)]
    exact Nat.le_refl _
  | flattened | leaf | tooDeep | stray | furtherBranch | lastBranch => exact Nat.le_add_right _ _
  | closedLoop | closedBranch | closedAlternative | abandoned =>
    exact Nat.le_add_right_of_le (Nat.le_succ _)

/-- Only an opening tag inside of as many constructs as the limit admits leaves a warning. -/
theorem deep_of_warned {state' : State} {token : Token} {notices : List Notice}
    (moved : Move limit state token state' notices) (warned : ¬Calm notices) :
    limit ≤ state.frames.length ∧ token.kind ∈ TokenKind.openers := by
  have silent : Calm [] := List.forall_mem_nil _
  cases moved with
  | tooDeep frames run opens deep => exact ⟨deep, kind_of_frameOf opens⟩
  | flattened | leaf | opened | closedLoop | furtherBranch | lastBranch | closedBranch
  | closedAlternative => exact absurd silent warned
  | stray run closes => exact absurd (List.forall_mem_singleton.mpr nofun) warned
  | abandoned frame frames run closes refused =>
    refine absurd (List.forall_mem_singleton.mpr ?_) warned
    cases frame <;> exact nofun

/-- Where tokens leave a warning, the constructs that are open in front of them and the opening tags
among them are more than the limit admits. -/
theorem lt_of_warned {read : List Token} (inside : ∀ token ∈ read, token.lexeme ≠ .endOfText)
    (warned : ¬Calm (allNotices limit state read)) :
    max limit 0 < (state.frames.length + openings read : Nat) := by
  induction read generalizing state with
  | nil => exact absurd (List.forall_mem_nil _) warned
  | cons token more ih =>
    have moved := move limit state token (inside token (by simp))
    rw [openings_cons]
    by_cases own : Calm (state.notices limit token)
    · have later : ¬Calm (allNotices limit (state.step limit token) more) := by
        intro calm
        exact warned (calm_append _ _ |>.mpr ⟨own, calm⟩)
      have counted := ih (fun t member => inside t (List.mem_cons_of_mem _ member)) later
      have opened := length_frames_le moved
      omega
    · obtain ⟨deep, opener⟩ := deep_of_warned moved own
      rw [if_pos opener]
      omega

end State

/-- At the end of a text no warning is left. -/
theorem calm_map_notice (frames : List Frame) (closer : Token) :
    Calm (frames.map (·.notice closer)) := by
  rw [Calm, List.forall_mem_map]
  intro frame _
  cases frame <;> exact nofun

/-- A limit that is not reached has no effect. Where no warning is logged on a text, none is logged
within a wider limit either: the tree is the same, all places included, and so is the whole log. A
warning is logged only if the text holds more opening tags than the limit admits; a negative limit
admits none, as nought does. -/
theorem parse_within_limit (limit : Int) (text : String) :
    ((∀ record ∈ Log.parseRecords limit text, record.level ≠ .warning) →
      ∀ wider, limit ≤ wider →
        (∀ record ∈ Log.parseRecords wider text, record.level ≠ .warning) ∧
        parse wider text = parse limit text ∧
        Log.parseRecords wider text = Log.parseRecords limit text) ∧
    ((∃ record ∈ Log.parseRecords limit text, record.level = .warning) →
      max limit 0 < (openings (tokenize text) : Int)) := by
  constructor
  · intro unwarned wider within
    have calm : Calm (parseNotices limit text) := (parseRecords_unwarned_iff limit text).mp unwarned
    have tree : parse wider text = parse limit text := by
      rw [parse, parse, Node.ofTokens, Node.ofTokens, State.foldl_within within calm]
    have log : Log.parseRecords wider text = Log.parseRecords limit text := by
      rw [Log.parseRecords, Log.parseRecords, State.assemblyRecords_within within calm, tree]
    exact ⟨log ▸ unwarned, tree, log⟩
  · rintro ⟨record, recorded, warning⟩
    have warned : ¬Calm (parseNotices limit text) := fun calm =>
      (parseRecords_unwarned_iff limit text).mpr calm record recorded warning
    obtain ⟨stop, split, -, notices⟩ := parse_eq_finish limit text
    have early : ¬Calm (State.allNotices limit .initial (contentTokens text)) := by
      intro calm
      rw [notices, calm_append] at warned
      exact warned ⟨calm, calm_map_notice _ _⟩
    have counted := State.lt_of_warned
      (fun token member => (proper_of_mem_contentTokens member).not_end) early
    have content : openings (tokenize text) = openings (contentTokens text) := by
      rw [split, openings, List.countP_append]
      rfl
    rw [content]
    simpa [State.initial] using counted

/-- The conditional is taken apart by the end of the loop around it, and two loops are left open.
Two levels are enough for that, although there are three opening tags; one level is not. -/
theorem parse_within_limit_of_open_loops :
    let text := statement "for x in xs" ++ statement "if x" ++ statement "endfor" ++
      statement "for y in ys" ++ interpolation "y"
    (∀ record ∈ Log.parseRecords 2 text, record.level ≠ .warning) ∧
      parseNotices 2 text ≠ [] ∧
      ((∀ record ∈ Log.parseRecords 64 text, record.level ≠ .warning) ∧
        parse 64 text = parse 2 text ∧
        Log.parseRecords 64 text = Log.parseRecords 2 text) ∧
      (∃ record ∈ Log.parseRecords 1 text, record.level = .warning) ∧
      max (1 : Int) 0 < openings (tokenize text) := by
  intro text
  have unwarned : ∀ record ∈ Log.parseRecords 2 text, record.level ≠ .warning := by decide +kernel
  have noticed : parseNotices 2 text ≠ [] := by decide +kernel
  have warned : ∃ record ∈ Log.parseRecords 1 text, record.level = .warning := by decide +kernel
  have same := (parse_within_limit 2 text).1 unwarned 64 (by decide)
  have more := (parse_within_limit 1 text).2 warned
  exact ⟨unwarned, noticed, same, warned, more⟩

end TextTemplate.Expression
