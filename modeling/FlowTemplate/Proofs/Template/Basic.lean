/-
Templates as trees: literal text, loops and chains, nested in each other. A tree holds the blanks it
is written with, so that `source` gives every way to write a template and `image` the markup that is
meant by it. What a tree is made of carries its own conditions: literals have no at sign and close
the braces they open, and expressions also close their parentheses and are trimmed.
-/
import FlowTemplate.Proofs.Container
import FlowTemplate.Proofs.Reading

namespace FlowTemplate

namespace Template

/-! ## What trees are made of -/

/-- Blanks, perhaps none. -/
structure Blanks where
  text : Text
  blank : text.Blank

/-- At least one blank. -/
structure Gap extends Blanks where
  ne_nil : text ≠ []

/-- One blank. -/
def Gap.space : Gap := ⟨⟨[' '], by decide⟩, by decide⟩

/-- A loop variable or an alias. -/
structure Name where
  text : Text
  valid : isIdentifier text = true

/-- Text that is no control flow. -/
structure Literal where
  text : Text
  no_at : '@' ∉ text
  braces : Delimiter.brace.Balanced text

/-- A condition, an iterable or a track expression. -/
structure Expression where
  text : Text
  ne_nil : text ≠ []
  trimmed : text.trim = text
  no_at : '@' ∉ text
  parens : Delimiter.paren.Balanced text
  braces : Delimiter.brace.Balanced text

/-- Whether a text reads as an expression with an alias clause behind it. -/
def EndsInAlias (text : Text) : Prop :=
  ∃ expression blanks gap name : Text, expression ≠ [] ∧ blanks.Blank ∧ gap.Blank ∧ gap ≠ [] ∧
    isIdentifier name = true ∧
    text = expression ++ ';' :: (blanks ++ ("as".toList ++ (gap ++ name)))

/-- The blanks around and in the parentheses of a header. -/
structure Layout where
  beforeHeader : Blanks
  atStart : Blanks
  atEnd : Blanks
  beforeBody : Blanks

/-- A track clause `; track key` with its blanks. -/
structure TrackClause where
  beforeSemicolon : Blanks
  afterSemicolon : Blanks
  afterTrack : Gap
  key : Expression

/-- The header of a loop. -/
structure LoopHeader extends Layout where
  item : Name
  beforeOf : Gap
  afterOf : Gap
  iterable : Expression
  no_semicolon : ';' ∉ iterable.text
  track? : Option TrackClause

/-- An alias clause `; as name` with its blanks. -/
structure AliasClause where
  beforeSemicolon : Blanks
  afterSemicolon : Blanks
  afterAs : Gap
  name : Name

/-- The header of a branch. Without an alias clause the condition does not look as if it had one. -/
structure BranchHeader extends Layout where
  condition : Expression
  alias? : Option AliasClause
  plain : alias? = none → ¬ EndsInAlias condition.text

end Template

mutual

/-- A template: a sequence of literals, loops and chains. -/
inductive Template where
  | nil
  | literal (text : Template.Literal) (rest : Template)
  | loop (header : Template.LoopHeader) (body rest : Template)
  | chain (header : Template.BranchHeader) (content : Template) (more : Branches) (rest : Template)

/-- The branches of a chain after its first one. -/
inductive Branches where
  | done
  | elseIf (beforeElse : Template.Blanks) (beforeIf : Template.Gap) (header : Template.BranchHeader)
      (content : Template) (more : Branches)
  | otherwise (beforeElse beforeBody : Template.Blanks) (content : Template)

end

/-! ## As source -/

namespace Template

/-- A header in its parentheses, with the blanks before its body. -/
def Layout.wrap (layout : Layout) (core : Text) : Text :=
  layout.beforeHeader.text ++
    '(' :: (layout.atStart.text ++ (core ++ layout.atEnd.text) ++ ')' :: layout.beforeBody.text)

/-- A body in its braces. -/
def inBraces (body : Text) : Text := '{' :: (body ++ ['}'])

def TrackClause.source (clause : TrackClause) : Text :=
  clause.beforeSemicolon.text ++
    ';' :: (clause.afterSemicolon.text ++ ("track".toList ++ (clause.afterTrack.text ++ clause.key.text)))

/-- The loop clause `item of iterable`. -/
def LoopHeader.clause (header : LoopHeader) : Text :=
  header.item.text ++
    (header.beforeOf.text ++ ("of".toList ++ (header.afterOf.text ++ header.iterable.text)))

def LoopHeader.source (header : LoopHeader) : Text :=
  header.wrap (header.clause ++ (header.track?.map TrackClause.source).getD [])

def AliasClause.source (clause : AliasClause) : Text :=
  clause.beforeSemicolon.text ++
    ';' :: (clause.afterSemicolon.text ++ ("as".toList ++ (clause.afterAs.text ++ clause.name.text)))

def BranchHeader.source (header : BranchHeader) : Text :=
  header.wrap (header.condition.text ++ (header.alias?.map AliasClause.source).getD [])

/-- A loop around a body. -/
def LoopHeader.block (header : LoopHeader) (body : Text) : Text :=
  "@for".toList ++ (header.source ++ inBraces body)

end Template

mutual

/-- A template with its chains as they are written, where `loop` writes a loop around a body. -/
def Template.write (loop : Template.LoopHeader → Text → Text) : Template → Text
  | .nil => []
  | .literal text rest => text.text ++ rest.write loop
  | .loop header body rest => loop header (body.write loop) ++ rest.write loop
  | .chain header content more rest =>
    "@if".toList ++ (header.source ++ (Template.inBraces (content.write loop) ++
      (more.write loop ++ rest.write loop)))

def Branches.write (loop : Template.LoopHeader → Text → Text) : Branches → Text
  | .done => []
  | .elseIf beforeElse beforeIf header content more =>
    beforeElse.text ++ ("@else".toList ++ (beforeIf.text ++ ("if".toList ++
      (header.source ++ (Template.inBraces (content.write loop) ++ more.write loop)))))
  | .otherwise beforeElse beforeBody content =>
    beforeElse.text ++ ("@else".toList ++ (beforeBody.text ++
      Template.inBraces (content.write loop)))

end

/-- A template as it is written. -/
def Template.source (template : Template) : Text := template.write Template.LoopHeader.block

/-! ## As markup -/

namespace Template

/-- The tag that opens an element with one directive. -/
def opening (directive expression : Text) : Text :=
  "<ng-container ".toList ++ directive ++ "=\"".toList ++ expression ++ "\">".toList

/-- The tag that closes it. -/
def closing : Text := "</ng-container>".toList

/-- An element around a content. -/
def element (directive expression content : Text) : Text :=
  opening directive expression ++ (content ++ closing)

/-- What the element of a loop says: the variable, what it runs over, and the track expression if
there is one. -/
def LoopHeader.directive (header : LoopHeader) : Text :=
  "let ".toList ++ header.item.text ++ " of ".toList ++ header.iterable.text ++
    match header.track? with
    | none => []
    | some clause => "; trackBy: ".toList ++ clause.key.text

/-- The element of a loop. -/
def LoopHeader.element (header : LoopHeader) (content : Text) : Text :=
  Template.element "*ngFor".toList header.directive content

/-- What the element of a branch says: its guard, and its alias if it has one. -/
def BranchHeader.directive (header : BranchHeader) (earlier : List Text) : Text :=
  Guard.conjunction earlier (some header.condition.text) ++
    match header.alias? with
    | none => []
    | some clause => "; let ".toList ++ clause.name.text

/-- The element of a branch behind branches with the conditions `earlier`. -/
def BranchHeader.element (header : BranchHeader) (earlier : List Text) (content : Text) : Text :=
  Template.element "*ngIf".toList (header.directive earlier) content

end Template

mutual

/-- The markup of a template: literals as they are, and each loop and branch as an element, where
`trim` is done to the content of a branch. -/
def Template.markup (trim : Text → Text) : Template → Text
  | .nil => []
  | .literal text rest => text.text ++ rest.markup trim
  | .loop header body rest => header.element (body.markup trim) ++ rest.markup trim
  | .chain header content more rest =>
    header.element [] (trim (content.markup trim)) ++
      (more.markup trim [header.condition.text] ++ rest.markup trim)

/-- The elements of the further branches of a chain, each on a line of its own, where `earlier` are
the conditions of the branches before. -/
def Branches.markup (trim : Text → Text) (earlier : List Text) : Branches → Text
  | .done => []
  | .elseIf _ _ header content more =>
    '\n' :: (header.element earlier (trim (content.markup trim)) ++
      more.markup trim (earlier ++ [header.condition.text]))
  | .otherwise _ _ content =>
    '\n' :: Template.element "*ngIf".toList (Guard.conjunction earlier none)
      (trim (content.markup trim))

end

/-- The markup that a template stands for. The content of a branch begins at its first character
that is no blank. -/
def Template.image (template : Template) : Text := template.markup Text.trimStart

/-! ## Nesting -/

mutual

/-- How many loops are at most inside each other. -/
def Template.loopDepth : Template → Nat
  | .nil => 0
  | .literal _ rest => rest.loopDepth
  | .loop _ body rest => max (body.loopDepth + 1) rest.loopDepth
  | .chain _ content more rest => max content.loopDepth (max more.loopDepth rest.loopDepth)

def Branches.loopDepth : Branches → Nat
  | .done => 0
  | .elseIf _ _ _ content more => max content.loopDepth more.loopDepth
  | .otherwise _ _ content => content.loopDepth

end

mutual

/-- How many chains are at most inside each other. -/
def Template.chainDepth : Template → Nat
  | .nil => 0
  | .literal _ rest => rest.chainDepth
  | .loop _ body rest => max body.chainDepth rest.chainDepth
  | .chain _ content more rest =>
    max (content.chainDepth + 1) (max more.chainDepth rest.chainDepth)

/-- The same for the branches of a chain, where the chain itself counts. -/
def Branches.chainDepth : Branches → Nat
  | .done => 0
  | .elseIf _ _ _ content more => max (content.chainDepth + 1) more.chainDepth
  | .otherwise _ _ content => content.chainDepth + 1

end

end FlowTemplate
