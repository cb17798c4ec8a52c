import TextTemplate.Expression.Tree
import TextTemplate.Parsing.Desk

/-!
# The descent into a template

Reading a template is a descent: a run of expressions holds constructs, the bodies of which are runs
again. Whatever closes a run is left to the construct around it. A construct that does not meet the
closer it waits for comes back as its tags and what stood between them, and one that is nested too
deep is taken flat. All of them read on from wherever the one before stopped. Each call is one of a
given number of rounds.
-/

namespace TextTemplate.Parsing

open Expression Log Markup Text

/-- The expression of a token that stands for itself. -/
def leafOf (token : Token) : Except Fault Tree :=
  match Tree.leaf? token with
  | some leaf => return leaf
  | none => throw (.noLeaf token.kind)

/-- The tokens of a construct nested too deep, flat, until its opening and closing tags balance or
the text ends. -/
def readFlat : Nat → Int → Parser (List Tree)
  | 0, _ => throw .unfinished
  | rounds + 1, balance => do
    let token ← current
    if token.lexeme = .endOfText then return []
    advance
    match Tree.leaf? token with
    | some leaf => return leaf :: (← readFlat rounds balance)
    | none =>
      if token.lexeme.isOpener then
        return .unexpected token :: (← readFlat rounds (balance + 1))
      else if token.lexeme.isEnder then
        if balance - 1 = 0 then return [.unexpected token]
        return .unexpected token :: (← readFlat rounds (balance - 1))
      else
        return .unexpected token :: (← readFlat rounds balance)

/-- A construct nested too deep. -/
def readTooDeep (limit : Int) (rounds : Nat) : Parser (List Tree) := do
  report (.tooDeep limit (← current))
  readFlat rounds 0

/-- What a body reads is one level deeper. -/
def deeper {α : Type} (inside : Parser α) : Parser α := do
  modify fun desk => { desk with depth := desk.depth + 1 }
  let body ← inside
  modify fun desk => { desk with depth := desk.depth - 1 }
  return body

mutual

/-- Expressions up to the next closer. -/
def readRun (limit : Int) : Nat → Parser (List Tree)
  | 0 => throw .unfinished
  | rounds + 1 => do
    let token ← current
    if token.lexeme.isCloser then return []
    match token.lexeme with
    | .forStart var path =>
      let pieces ←
        if limit ≤ (← get).depth then readTooDeep limit rounds
        else readFor limit rounds var path
      return pieces ++ (← readRun limit rounds)
    | .ifStart _ =>
      let pieces ←
        if limit ≤ (← get).depth then readTooDeep limit rounds else readIf limit rounds
      return pieces ++ (← readRun limit rounds)
    | _ =>
      let leaf ← leafOf token
      advance
      return leaf :: (← readRun limit rounds)

/-- A loop, or the pieces of one that is not closed by its own closer. -/
def readFor (limit : Int) (rounds : Nat) (var : Ident) (path : Path) : Parser (List Tree) :=
  match rounds with
  | 0 => throw .unfinished
  | rounds + 1 => do
    let opener ← current
    advance
    let body ← deeper (readRun limit rounds)
    let closer ← current
    advance
    if closer.lexeme = .forEnd then
      return [.loop var path opener closer (← Tree.bodyBehind opener body)]
    report (.unclosedLoop opener.span.start closer)
    return .unexpected opener :: (body ++ [.unexpected closer])

/-- A conditional, or the pieces of one that is not closed by its own closer. -/
def readIf (limit : Int) : Nat → Parser (List Tree)
  | 0 => throw .unfinished
  | rounds + 1 => do
    let opener ← current
    advance
    let body ← deeper (readRun limit rounds)
    let first : Tagged Tree := ⟨opener, ← Tree.bodyBehind opener body⟩
    readBranches limit rounds opener [first] none (.unexpected opener :: body)

/-- The rest of a conditional behind its first body. The branches so far come along, and so do all
pieces in case it falls apart. -/
def readBranches (limit : Int) (rounds : Nat) (opener : Token) (branches : List (Tagged Tree))
    (otherwise : Option (Tagged Tree)) (flattened : List Tree) : Parser (List Tree) :=
  match rounds with
  | 0 => throw .unfinished
  | rounds + 1 => do
    let token ← current
    advance
    match otherwise, token.lexeme with
    | none, .elifTag _ =>
      let body ← deeper (readRun limit rounds)
      let branch : Tagged Tree := ⟨token, ← Tree.bodyBehind token body⟩
      readBranches limit rounds opener (branches ++ [branch]) none
        (flattened ++ .unexpected token :: body)
    | none, .elseTag =>
      let body ← deeper (readRun limit rounds)
      let branch : Tagged Tree := ⟨token, ← Tree.bodyBehind token body⟩
      readBranches limit rounds opener branches (some branch)
        (flattened ++ .unexpected token :: body)
    | _, .ifEnd => return [.choice branches otherwise token]
    | _, _ =>
      report (.unclosedChoice opener.span.start token)
      return flattened ++ [.unexpected token]

end

/-- All expressions up to the end of the text. A closer that nothing is open for stays. -/
def readAll (limit : Int) : Nat → Parser (List Tree)
  | 0 => throw .unfinished
  | rounds + 1 => do
    if (← current).lexeme = .endOfText then return []
    let run ← readRun limit rounds
    let token ← current
    if token.lexeme = .endOfText then return run
    report (.unexpected token)
    advance
    return run ++ .unexpected token :: (← readAll limit rounds)

/-- The tree of a template, in at most so many rounds. -/
def readTemplate (limit : Int) (rounds : Nat) : Parser Tree := do
  let trees ← readAll limit rounds
  if trees.isEmpty then return .empty (← current).span
  Tree.join trees

/-- The tree of a text, with constructs nested up to `limit` deep, and the records that were kept on
the way. -/
def parseLogged (debug : Bool) (limit : Int) (text : String) :
    Except Fault (Tree × List Record) := do
  let desk ← Desk.ofText debug text
  let parser : Parser Tree := do
    let tree ← readTemplate limit (2 * text.length + 3)
    write ⟨.template, .debug,
      "Parsed " ++ toString text.length ++ " characters of template into " ++ tree.kind.name⟩
    return tree
  let (tree, desk) ← parser.run desk
  return (tree, desk.log)

end TextTemplate.Parsing
