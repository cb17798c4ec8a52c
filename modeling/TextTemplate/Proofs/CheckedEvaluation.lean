import TextTemplate.Evaluation.Render
import TextTemplate.Evaluation.Residual
import TextTemplate.Proofs.CheckedAssembly
import TextTemplate.Proofs.ContextExtension

/-!
# Evaluating never fails a check

An evaluation goes by the kind of an expression: there is a method for every kind it knows, looked
up by name. The methods take for granted that they are given an expression of their own kind, that
a conditional has a branch where it is undecided, and that a condition is known where it is tested.
Here both evaluations are written once more as methods with these checks in them, and with a bound
on how deep their calls may nest. No check fails for any expression and any context: as long as
calls may nest deep enough, which hangs on the expression alone, the checked evaluations come back
with the text and with what is left.
-/

namespace TextTemplate

open Text Markup Expression Data

namespace Expression.Node

/-- The token that an expression other than a loop, a conditional or a sequence consists of. -/
def ownToken? : Node → Option Token
  | .raw text span => some ⟨.raw text, span⟩
  | .invalid text span => some ⟨.invalid text, span⟩
  | .use path span => some ⟨.use path, span⟩
  | .unexpected token => some token
  | .loop _ _ _ _ _ | .choice _ _ _ | .concat _ => none

end Expression.Node

namespace Evaluation

variable {α : Type}

/-- How an expression is evaluated under a context, given how its parts are. -/
abbrev Method (α : Type) :=
  (Node → Context → Except Fault α) → Node → Context → Except Fault α

/-- Evaluates an expression by the method named after its kind. Calls may nest `calls` deep. -/
def visit (methods : List (String × Method α)) : Nat → Node → Context → Except Fault α
  | 0, _, _ => throw .unfinished
  | calls + 1, node, context =>
    match methods.lookup ("visit_" ++ node.kind.name) with
    | some method => method (visit methods calls) node context
    | none => throw (.unhandled node.kind)

/-- Whether a condition holds, refused where its value is unknown. -/
def tryTruthy : Option Value → Except Fault Bool
  | some value => return value.truthy
  | none => throw .unknownCondition

/-- The conditional that is left once the first `index` conditions are known to fail. -/
def tryFromBranch (index : Nat) (node : Node) : Except Fault Node :=
  match node.fromBranch? index with
  | some (.ok left) => return left
  | some (.error misuse) => throw (.misuse misuse)
  | none => throw (.noSuchPart node.kind)

/-- The bodies of a conditional. -/
def bodiesOf (branches : List (Branch Node)) (otherwise : Option (Alternative Node)) :
    List Node :=
  branches.map (·.body) ++ (otherwise.map (·.body)).toList

/-- Goes through the branches of a conditional, the first one at the index `index`. What is done
hangs on the first condition that is unknown or holds. -/
def select (context : Context) (undecided : Nat → Except Fault α) (taken : Node → Except Fault α)
    (exhausted : Except Fault α) : Nat → List (Branch Node) → Except Fault α
  | _, [] => exhausted
  | index, branch :: more => do
    let condition := context.resolve? branch.path.parts
    if condition.isNone then undecided index
    else if ← tryTruthy condition then taken branch.body
    else select context undecided taken exhausted (index + 1) more

/-- Evaluates the body of an alternative; without one there is nothing to evaluate. -/
def visitAlternative (visit : Node → Context → Except Fault α) (nothing : α)
    (otherwise : Option (Alternative Node)) (context : Context) : Except Fault α :=
  match otherwise with
  | some alternative => visit alternative.body context
  | none => return nothing

/-- Writes the token of an expression. -/
def writeToken : Method String := fun _ node _ =>
  match node.ownToken? with
  | some token => return token.canonical
  | none => throw (.noSuchPart node.kind)

/-- Writes expressions one after the other. -/
def writeChildren : Method String := fun visit node context =>
  match node with
  | .concat children => do return .join (← children.mapM fun child => visit child context)
  | _ => throw (.noSuchPart node.kind)

/-- Writes a value, or the place where it is missing. -/
def writeValue : Method String := fun _ node context =>
  match node with
  | .use path _ =>
    match context.resolve? path.parts with
    | some (.text content) => return content
    | _ => return (Lexeme.use path).canonical
  | _ => throw (.noSuchPart node.kind)

/-- Writes the body of a loop for every item, or the loop itself. -/
def writeLoop : Method String := fun visit node context =>
  match node with
  | .loop var path _ _ body =>
    match (context.resolve? path.parts).bind Value.loopItems? with
    | some items => do
      return .join (← items.mapM fun item => visit body (context.bind var.text item))
    | none => do
      return (Lexeme.forStart var path).canonical ++ (← visit body context) ++
        Lexeme.forEnd.canonical
  | _ => throw (.noSuchPart node.kind)

/-- Writes a conditional itself: each tag in front of a body, and the last one behind them. -/
def writeUndecided : Method String := fun visit node context =>
  match node with
  | .choice branches otherwise closing => do
    let parts := (choiceTags branches otherwise closing).zip (bodiesOf branches otherwise)
    let written ← parts.mapM fun part => do return part.1.canonical ++ (← visit part.2 context)
    return .join written ++ Lexeme.ifEnd.canonical
  | _ => throw (.noSuchPart node.kind)

/-- Writes the branch of a conditional that is selected, or what is undecided of it. -/
def writeChoice : Method String := fun visit node context =>
  match node with
  | .choice branches otherwise _ =>
    let undecided (index : Nat) : Except Fault String := do
      writeUndecided visit (← tryFromBranch index node) context
    select context undecided (fun body => visit body context)
      (visitAlternative visit "" otherwise context) 0 branches
  | _ => throw (.noSuchPart node.kind)

/-- The methods that write the text of an expression. -/
def renderMethods : List (String × Method String) :=
  [("visit_Raw", writeToken), ("visit_InvalidExpr", writeToken),
    ("visit_UnexpectedToken", writeToken), ("visit_Concat", writeChildren),
    ("visit_Use", writeValue), ("visit_For", writeLoop), ("visit_If", writeChoice)]

/-- Leaves an expression as it is. -/
def leaveAll : Method Node := fun _ node _ => return node

/-- Leaves what is left of expressions one by one. -/
def leaveChildren : Method Node := fun visit node context =>
  match node with
  | .concat children => do return .concat (← children.mapM fun child => visit child context)
  | _ => throw (.noSuchPart node.kind)

/-- Leaves a value as text, or its place. -/
def leaveValue : Method Node := fun _ node context =>
  match node with
  | .use path span =>
    match context.resolve? path.parts with
    | some (.text content) => return .raw content span
    | _ => return node
  | _ => throw (.noSuchPart node.kind)

/-- Leaves what is left of the body of a loop for every item, or the loop itself. -/
def leaveLoop : Method Node := fun visit node context =>
  match node with
  | .loop var path _ _ body =>
    match (context.resolve? path.parts).bind Value.loopItems? with
    | some items => do
      return .concat (← items.mapM fun item => visit body (context.bind var.text item))
    | none => return node
  | _ => throw (.noSuchPart node.kind)

/-- Leaves what is left of the branch that is selected, or what is undecided of the conditional. -/
def leaveChoice : Method Node := fun visit node context =>
  match node with
  | .choice branches otherwise _ =>
    select context (fun index => tryFromBranch index node) (fun body => visit body context)
      (visitAlternative visit (.concat []) otherwise context) 0 branches
  | _ => throw (.noSuchPart node.kind)

/-- The methods that leave what is left of an expression. -/
def residualMethods : List (String × Method Node) :=
  [("visit_Raw", leaveAll), ("visit_InvalidExpr", leaveAll), ("visit_UnexpectedToken", leaveAll),
    ("visit_Concat", leaveChildren), ("visit_Use", leaveValue), ("visit_For", leaveLoop),
    ("visit_If", leaveChoice)]

/-- The text of an expression, written by methods whose calls may nest `calls` deep. -/
def tryRender (calls : Nat) (node : Node) (context : Context) : Except Fault String :=
  visit renderMethods calls node context

/-- What is left of an expression, by methods whose calls may nest `calls` deep. -/
def tryResidual (calls : Nat) (node : Node) (context : Context) : Except Fault Node :=
  visit residualMethods calls node context

/-- The method that writes expressions of a kind. -/
def renderMethod : NodeKind → Method String
  | .raw | .invalid | .unexpected => writeToken
  | .concat => writeChildren
  | .use => writeValue
  | .loop => writeLoop
  | .choice => writeChoice

/-- The method for what is left of expressions of a kind. -/
def residualMethod : NodeKind → Method Node
  | .raw | .invalid | .unexpected => leaveAll
  | .concat => leaveChildren
  | .use => leaveValue
  | .loop => leaveLoop
  | .choice => leaveChoice

/-- Expressions of every kind are written by the method for the kind. -/
theorem visit_renderMethods (calls : Nat) (node : Node) (context : Context) :
    visit renderMethods (calls + 1) node context =
      renderMethod node.kind (visit renderMethods calls) node context := by
  have found : renderMethods.lookup ("visit_" ++ node.kind.name) = some (renderMethod node.kind) := by
    cases node.kind <;> rfl
  rw [visit, found]

/-- What is left of expressions of every kind is up to the method for the kind. -/
theorem visit_residualMethods (calls : Nat) (node : Node) (context : Context) :
    visit residualMethods (calls + 1) node context =
      residualMethod node.kind (visit residualMethods calls) node context := by
  have found : residualMethods.lookup ("visit_" ++ node.kind.name) =
      some (residualMethod node.kind) := by
    cases node.kind <;> rfl
  rw [visit, found]

/-- What is done with a conditional hangs on what the context knows about its conditions. The branch
that is undecided or taken is one of its own. -/
theorem select_cases (context : Context) (undecided : Nat → Except Fault α)
    (taken : Node → Except Fault α) (exhausted : Except Fault α) (index : Nat)
    (branches : List (Branch Node)) :
    (∃ i < branches.length, decision context (branches.map (·.path)) = .undecided i ∧
      select context undecided taken exhausted index branches = undecided (index + i)) ∨
    (∃ i branch, decision context (branches.map (·.path)) = .taken i ∧
      branches[i]? = some branch ∧
      select context undecided taken exhausted index branches = taken branch.body) ∨
    (decision context (branches.map (·.path)) = .exhausted ∧
      select context undecided taken exhausted index branches = exhausted) := by
  induction branches generalizing index with
  | nil => exact .inr (.inr ⟨rfl, rfl⟩)
  | cons branch more ih =>
    rw [List.map_cons]
    cases found : context.resolve? branch.path.parts with
    | none =>
      refine .inl ⟨0, Nat.succ_pos _, decision_of_unknown found _, ?_⟩
      rw [select, found]
      rfl
    | some value =>
      by_cases holds : value.truthy
      · refine .inr (.inl ⟨0, branch, decision_of_holds found holds _, rfl, ?_⟩)
        rw [select, found]
        simp [tryTruthy, holds]
      · have failed : select context undecided taken exhausted index (branch :: more) =
            select context undecided taken exhausted (index + 1) more := by
          rw [select, found]
          simp [tryTruthy, holds]
        rw [decision_of_fails found holds, failed]
        obtain ⟨i, inside, known, same⟩ | ⟨i, other, known, there, same⟩ | ⟨known, same⟩ :=
          ih (index + 1)
        · refine .inl ⟨i + 1, Nat.succ_lt_succ inside, by rw [known]; rfl, ?_⟩
          rw [same, Nat.add_assoc, Nat.add_comm 1 i]
        · exact .inr (.inl ⟨i + 1, other, by rw [known]; rfl, there, same⟩)
        · exact .inr (.inr ⟨by rw [known]; rfl, same⟩)

/-- A conditional comes to a result when whatever is done with it does. -/
theorem select_returns {context : Context} {undecided : Nat → Except Fault α}
    {taken : Node → Except Fault α} {exhausted : Except Fault α} {branches : List (Branch Node)}
    {result : α}
    (left : ∀ i < branches.length, decision context (branches.map (·.path)) = .undecided i →
      undecided i = .ok result)
    (chosen : ∀ i branch, decision context (branches.map (·.path)) = .taken i →
      branches[i]? = some branch → taken branch.body = .ok result)
    (failed : decision context (branches.map (·.path)) = .exhausted → exhausted = .ok result) :
    select context undecided taken exhausted 0 branches = .ok result := by
  obtain ⟨i, inside, known, same⟩ | ⟨i, branch, known, there, same⟩ | ⟨known, same⟩ :=
    select_cases context undecided taken exhausted 0 branches
  · rw [same, Nat.zero_add, left i inside known]
  · rw [same, chosen i branch known there]
  · rw [same, failed known]

/-- A branch that a conditional has can be asked for. -/
theorem tryFromBranch_eq {index : Nat} {branches : List (Branch Node)}
    (inside : index < branches.length) (otherwise : Option (Alternative Node)) (closing : Span) :
    tryFromBranch index (.choice branches otherwise closing) =
      .ok (.choice (branches.drop index) otherwise closing) := by
  simp [tryFromBranch, Node.fromBranch?, inside]
  rfl

/-- A branch that a conditional does not have is refused. -/
example : tryFromBranch 1 (.choice [] none (.empty .start)) =
    .error (.misuse .indexOutOfRange) := rfl

/-- Where calls may nest deep enough, the methods come back with the result for an expression,
whatever the context is. -/
def Settles (methods : List (String × Method α)) (total : Node → Context → α) (node : Node) :
    Prop :=
  ∃ enough, ∀ more context, visit methods (enough + more) node context = .ok (total node context)

variable {methods : List (String × Method α)} {total : Node → Context → α}

/-- One depth of calls is enough for all expressions in a row. -/
theorem exists_enough {nodes : List Node} (each : ∀ node ∈ nodes, Settles methods total node) :
    ∃ enough, ∀ more, ∀ node ∈ nodes, ∀ context,
      visit methods (enough + more) node context = .ok (total node context) := by
  induction nodes with
  | nil => exact ⟨0, fun _ _ none => absurd none List.not_mem_nil⟩
  | cons node others ih =>
    rw [List.forall_mem_cons] at each
    obtain ⟨enough, own⟩ := each.1
    obtain ⟨enough', rest⟩ := ih each.2
    refine ⟨enough + enough', fun more => List.forall_mem_cons.mpr ⟨fun context => ?_, ?_⟩⟩
    · rw [Nat.add_assoc]
      exact own (enough' + more) context
    · rw [Nat.add_comm enough, Nat.add_assoc]
      exact rest (enough + more)

/-- An expression is settled by one more call than its parts. -/
theorem settles_of_parts {node : Node} (parts : List Node)
    (each : ∀ part ∈ parts, Settles methods total part)
    (called : ∀ calls,
      (∀ part ∈ parts, ∀ context, visit methods calls part context = .ok (total part context)) →
        ∀ context, visit methods (calls + 1) node context = .ok (total node context)) :
    Settles methods total node := by
  obtain ⟨enough, settled⟩ := exists_enough each
  refine ⟨enough + 1, fun more context => ?_⟩
  rw [Nat.add_right_comm]
  exact called (enough + more) (settled more) context

/-- An expression without parts is settled by one call. -/
theorem settles_of_no_parts {node : Node}
    (called : ∀ calls context, visit methods (calls + 1) node context = .ok (total node context)) :
    Settles methods total node :=
  settles_of_parts [] (fun _ none => absurd none List.not_mem_nil) fun calls _ => called calls

/-- What holds of the bodies of all branches and of the alternative holds of all bodies. -/
theorem forall_mem_bodiesOf {branches : List (Branch Node)}
    {otherwise : Option (Alternative Node)} {kept : Node → Prop}
    (bodies : ∀ branch ∈ branches, kept branch.body)
    (last : ∀ alternative, otherwise = some alternative → kept alternative.body) :
    ∀ body ∈ bodiesOf branches otherwise, kept body := by
  rw [bodiesOf, List.forall_mem_append, List.forall_mem_map]
  refine ⟨bodies, fun body member => ?_⟩
  obtain ⟨alternative, same, rfl⟩ := Option.map_eq_some_iff.mp (Option.mem_toList.mp member)
  exact last alternative same

/-- Dropping branches leaves bodies of the conditional. -/
theorem mem_bodiesOf_drop {branches : List (Branch Node)} {otherwise : Option (Alternative Node)}
    {index : Nat} {body : Node} (member : body ∈ bodiesOf (branches.drop index) otherwise) :
    body ∈ bodiesOf branches otherwise := by
  rw [bodiesOf, List.map_drop, List.mem_append] at member
  exact List.mem_append.mpr (member.imp_left List.mem_of_mem_drop)

/-- Elif tags in front of their bodies are written as further branches. -/
theorem join_elifTags (branches : List (Branch Node)) (context : Context) :
    String.join (((branches.map fun branch => (⟨.elifTag branch.path, branch.span⟩ : Token)).zip
        (branches.map (·.body))).map fun part => part.1.canonical ++ part.2.render context) =
      Node.writeRest branches context := by
  induction branches with
  | nil => rfl
  | cons branch more ih =>
    simp only [List.map_cons, List.zip_cons_cons, String.join_cons, ih, Node.writeRest]
    rfl

/-- The tags of a conditional in front of its bodies are written as the conditional without its
end. -/
theorem join_choiceTags (branches : List (Branch Node)) (otherwise : Option (Alternative Node))
    (closing : Span) (context : Context) :
    String.join (((choiceTags branches otherwise closing).zip (bodiesOf branches otherwise)).map
        fun part => part.1.canonical ++ part.2.render context) =
      Node.writeFrom 0 branches context ++ Node.writeAlternative otherwise context := by
  have length : (branchTags branches).length = (branches.map (·.body)).length := by
    cases branches <;> simp [branchTags]
  have front : String.join (((branchTags branches).zip (branches.map (·.body))).map
      fun part => part.1.canonical ++ part.2.render context) =
      Node.writeFrom 0 branches context := by
    cases branches with
    | nil => rfl
    | cons first more =>
      rw [branchTags, List.map_cons, List.zip_cons_cons, List.map_cons, String.join_cons,
        join_elifTags, Node.writeFrom]
      rfl
  have last : String.join ((List.zip
        ((otherwise.map fun alternative => (⟨.elseTag, alternative.span⟩ : Token)).toList ++
          [⟨.ifEnd, closing⟩]) (otherwise.map fun alternative => alternative.body).toList).map
        fun part => part.1.canonical ++ part.2.render context) =
      Node.writeAlternative otherwise context := by
    cases otherwise with
    | none => rfl
    | some alternative => simp [Node.writeAlternative, Token.canonical]
  rw [choiceTags, bodiesOf, List.append_assoc, List.zip_append length, List.map_append,
    String.join_append, front, last]

/-- Where its bodies are written, an undecided conditional is. -/
theorem writeUndecided_eq {visit : Node → Context → Except Fault String}
    {branches : List (Branch Node)} {otherwise : Option (Alternative Node)} {context : Context}
    (written : ∀ body ∈ bodiesOf branches otherwise,
      visit body context = .ok (body.render context)) (closing : Span) :
    writeUndecided visit (.choice branches otherwise closing) context =
      .ok (Node.writeFrom 0 branches context ++ Node.writeAlternative otherwise context ++
        Lexeme.ifEnd.canonical) := by
  have parts : ((choiceTags branches otherwise closing).zip (bodiesOf branches otherwise)).mapM
      (fun part => do return part.1.canonical ++ (← visit part.2 context)) =
      .ok (((choiceTags branches otherwise closing).zip (bodiesOf branches otherwise)).map
        fun part => part.1.canonical ++ part.2.render context) := by
    apply Fault.mapM_ok
    intro part member
    rw [written part.2 (List.of_mem_zip member).2]
    rfl
  rw [← join_choiceTags branches otherwise closing]
  simp only [writeUndecided, parts, Fault.ok_bind]
  rfl

/-- Every expression is written, as long as calls may nest deep enough. -/
theorem settles_render (node : Node) : Settles renderMethods Node.render node := by
  induction node using Node.inductionOn with
  | raw | invalid | unexpected =>
    refine settles_of_no_parts fun calls context => ?_
    rw [visit_renderMethods, Node.render]
    rfl
  | use path span =>
    refine settles_of_no_parts fun calls context => ?_
    rw [visit_renderMethods, Node.render]
    simp only [Node.kind, renderMethod, writeValue]
    cases context.resolve? path.parts with
    | none => rfl
    | some value => cases value <;> rfl
  | concat children ih =>
    refine settles_of_parts children ih fun calls parts context => ?_
    have each : children.mapM (fun child => visit renderMethods calls child context) =
        .ok (children.map (·.render context)) :=
      Fault.mapM_ok fun child member => parts child member context
    rw [visit_renderMethods, Node.render, Node.renderAll_eq_join]
    simp only [Node.kind, renderMethod, writeChildren, each, Fault.ok_bind]
    rfl
  | loop var path opening closing body ih =>
    refine settles_of_parts [body] (List.forall_mem_singleton.mpr ih) fun calls parts context => ?_
    have written := List.forall_mem_singleton.mp parts
    rw [visit_renderMethods, Node.render]
    simp only [Node.kind, renderMethod, writeLoop]
    cases (context.resolve? path.parts).bind Value.loopItems? with
    | none => simp only [written, Fault.ok_bind]; rfl
    | some items =>
      have each : items.mapM (fun item =>
            visit renderMethods calls body (context.bind var.text item)) =
          .ok (items.map fun item => body.render (context.bind var.text item)) :=
        Fault.mapM_ok fun item _ => written _
      simp only [each, Fault.ok_bind]
      rfl
  | choice branches otherwise closing bodies last =>
    have each := forall_mem_bodiesOf bodies last
    refine settles_of_parts (bodiesOf branches otherwise) each fun calls parts context => ?_
    rw [visit_renderMethods, Node.render]
    refine select_returns (fun i inside known => ?_) (fun i branch known there => ?_) fun known => ?_
    · have fewer : ∀ body ∈ bodiesOf (branches.drop i) otherwise,
          visit renderMethods calls body context = .ok (body.render context) :=
        fun body member => parts body (mem_bodiesOf_drop member) context
      rw [tryFromBranch_eq inside, Fault.ok_bind, writeUndecided_eq fewer, known]
      simp only [Node.writeFrom_eq_drop i]
    · have taken : branch.body ∈ bodiesOf branches otherwise :=
        List.mem_append_left _ (List.mem_map_of_mem (List.mem_of_getElem? there))
      rw [parts branch.body taken context, known]
      simp only [Node.renderBranch_eq_elim, there, Option.elim_some]
    · rw [known]
      cases otherwise with
      | none => rfl
      | some alternative =>
        have last : alternative.body ∈ bodiesOf branches (some alternative) := by simp [bodiesOf]
        exact parts alternative.body last context

/-- What is left of every expression is found, as long as calls may nest deep enough. -/
theorem settles_residual (node : Node) : Settles residualMethods Node.residual node := by
  induction node using Node.inductionOn with
  | raw | invalid | unexpected =>
    refine settles_of_no_parts fun calls context => ?_
    rw [visit_residualMethods, Node.residual]
    rfl
  | use path span =>
    refine settles_of_no_parts fun calls context => ?_
    rw [visit_residualMethods, Node.residual]
    simp only [Node.kind, residualMethod, leaveValue]
    cases context.resolve? path.parts with
    | none => rfl
    | some value => cases value <;> rfl
  | concat children ih =>
    refine settles_of_parts children ih fun calls parts context => ?_
    have each : children.mapM (fun child => visit residualMethods calls child context) =
        .ok (children.map (·.residual context)) :=
      Fault.mapM_ok fun child member => parts child member context
    rw [visit_residualMethods, Node.residual, Node.residuals_eq_map]
    simp only [Node.kind, residualMethod, leaveChildren, each, Fault.ok_bind]
    rfl
  | loop var path opening closing body ih =>
    refine settles_of_parts [body] (List.forall_mem_singleton.mpr ih) fun calls parts context => ?_
    have written := List.forall_mem_singleton.mp parts
    rw [visit_residualMethods, Node.residual]
    simp only [Node.kind, residualMethod, leaveLoop]
    cases (context.resolve? path.parts).bind Value.loopItems? with
    | none => rfl
    | some items =>
      have each : items.mapM (fun item =>
            visit residualMethods calls body (context.bind var.text item)) =
          .ok (items.map fun item => body.residual (context.bind var.text item)) :=
        Fault.mapM_ok fun item _ => written _
      simp only [each, Fault.ok_bind]
      rfl
  | choice branches otherwise closing bodies last =>
    have each := forall_mem_bodiesOf bodies last
    refine settles_of_parts (bodiesOf branches otherwise) each fun calls parts context => ?_
    rw [visit_residualMethods, Node.residual]
    refine select_returns (fun i inside known => ?_) (fun i branch known there => ?_) fun known => ?_
    · rw [tryFromBranch_eq inside, known]
    · have taken : branch.body ∈ bodiesOf branches otherwise :=
        List.mem_append_left _ (List.mem_map_of_mem (List.mem_of_getElem? there))
      rw [parts branch.body taken context, known]
      simp only [Node.residualBranch_eq_elim, there, Option.elim_some]
    · rw [known]
      cases otherwise with
      | none => rfl
      | some alternative =>
        have last : alternative.body ∈ bodiesOf branches (some alternative) := by simp [bodiesOf]
        exact parts alternative.body last context

/-- Nothing is ever refused. Every text is taken apart and assembled without a failing check,
however deep constructs may nest. Every expression, among them all that can be reached from the tree
of a text, is evaluated under every context without a failing check, as long as calls may nest deep
enough; and the results are those of reading, assembling and evaluating without checks. -/
theorem nothing_refused (limit : Int) (text : String) :
    tryTokenize text = .ok (tokenize text) ∧
    tryParse limit text = .ok (parse limit text) ∧
    ∀ node, ∃ enough, ∀ more context,
      tryRender (enough + more) node context = .ok (node.render context) ∧
      tryResidual (enough + more) node context = .ok (node.residual context) := by
  refine ⟨tryTokenize_eq text, tryParse_eq limit text, fun node => ?_⟩
  obtain ⟨enough, written⟩ := settles_render node
  obtain ⟨enough', left⟩ := settles_residual node
  refine ⟨enough + enough', fun more context => ⟨?_, ?_⟩⟩
  · rw [Nat.add_assoc]
    exact written (enough' + more) context
  · rw [Nat.add_comm enough, Nat.add_assoc]
    exact left (enough + more) context

end Evaluation

end TextTemplate
