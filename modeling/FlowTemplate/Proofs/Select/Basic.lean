/-
Templates in a select. There every loop is meant to stand between two comments, with its trimmed body
between them, while the branches of chains stay elements (`Template.marked`). What may stand in the
select is markup without quotes and without the tags that the search for selects and loops goes by
(`Template.InSelect`). A loop is flat if its body is text only.
-/
import FlowTemplate.Proofs.Select.Reading
import FlowTemplate.Proofs.PropertyBinding

namespace FlowTemplate

namespace Template

/-! ## Text only -/

/-- Whether a template has neither loops nor chains. -/
def IsText : Template → Prop
  | .nil => True
  | .literal _ rest => rest.IsText
  | .loop .. => False
  | .chain .. => False

/-- The text at the front of a template, up to its first loop or chain. -/
def leading : Template → Text
  | .literal text rest => text.text ++ rest.leading
  | _ => []

/-! ## Loops between markers -/

/-- A content between the markers of a loop. -/
def LoopHeader.between (header : LoopHeader) (content : Text) : Text :=
  "<!--F:".toList ++ header.item.text ++ ":".toList ++ header.iterable.text ++ "-->".toList ++
    (content ++ "<!--/F-->".toList)

end Template

mutual

/-- What a template is meant to be in a select: each loop its trimmed body between markers, and each
branch an element. -/
def Template.marked : Template → Text
  | .nil => []
  | .literal text rest => text.text ++ rest.marked
  | .loop header body rest => header.between (Text.trim body.marked) ++ rest.marked
  | .chain header content more rest =>
    header.element [] (Text.trimStart content.marked) ++
      (more.marked [header.condition.text] ++ rest.marked)

/-- The further branches of a chain in a select, behind branches with the conditions `earlier`. -/
def Branches.marked (earlier : List Text) : Branches → Text
  | .done => []
  | .elseIf _ _ header content more =>
    '\n' :: (header.element earlier (Text.trimStart content.marked) ++
      more.marked (earlier ++ [header.condition.text]))
  | .otherwise _ _ content =>
    '\n' :: Template.element "*ngIf".toList (Guard.conjunction earlier none)
      (Text.trimStart content.marked)

end

mutual

/-- Every loop of a template has a body of text only. -/
def Template.FlatLoops : Template → Prop
  | .nil => True
  | .literal _ rest => rest.FlatLoops
  | .loop _ body rest => body.IsText ∧ rest.FlatLoops
  | .chain _ content more rest => content.FlatLoops ∧ more.FlatLoops ∧ rest.FlatLoops

def Branches.FlatLoops : Branches → Prop
  | .done => True
  | .elseIf _ _ _ content more => content.FlatLoops ∧ more.FlatLoops
  | .otherwise _ _ content => content.FlatLoops

end

/-! ## What may stand in a select -/

namespace Template

/-- A loop whose header can be found again in its element. -/
structure LoopHeader.InSelect (header : LoopHeader) : Prop where
  no_track : header.track? = none
  no_dollar : '$' ∉ header.item.text
  no_quote : '"' ∉ header.iterable.text
  no_tag : Text.Lacks SelectMarker.afterTag? header.iterable.text []

/-- A branch whose condition holds none of the tags and forms no property binding. -/
structure BranchHeader.InSelect (header : BranchHeader) : Prop where
  no_tag : Text.Lacks SelectMarker.afterTag? header.condition.text []
  no_binding : Text.Lacks PropertyBinding.readBinding (header.condition.text ++ ['"']) []

end Template

mutual

/-- A template of markup without double quotes, without the end of a select and tags of containers, and
of loops and chains in whose headers there are none either. -/
def Template.InSelect : Template → Prop
  | .nil => True
  | .literal text rest =>
    '"' ∉ text.text ∧ Text.Lacks SelectMarker.afterTag? (text.text ++ rest.leading) [] ∧ rest.InSelect
  | .loop header body rest => header.InSelect ∧ body.InSelect ∧ rest.InSelect
  | .chain header content more rest =>
    header.InSelect ∧ content.InSelect ∧ more.InSelect ∧ rest.InSelect

def Branches.InSelect : Branches → Prop
  | .done => True
  | .elseIf _ _ header content more => header.InSelect ∧ content.InSelect ∧ more.InSelect
  | .otherwise _ _ content => content.InSelect

end

namespace Template

theorem InSelect.lacks_leading {template : Template} (h : template.InSelect) :
    Text.Lacks SelectMarker.afterTag? template.leading [] := by
  match template with
  | .nil => trivial
  | .literal _ _ => exact h.2.1
  | .loop .. => trivial
  | .chain .. => trivial

theorem InSelect.leading_no_quote {template : Template} (h : template.InSelect) :
    '"' ∉ template.leading := by
  match template with
  | .nil => exact List.not_mem_nil
  | .literal text rest => exact List.not_mem_append h.1 (InSelect.leading_no_quote h.2.2)
  | .loop .. => exact List.not_mem_nil
  | .chain .. => exact List.not_mem_nil

/-- A text that is empty or begins with a tag or a comment. -/
def AtTag (text : Text) : Prop := ∀ c ∈ text.head?, c = '<'

theorem AtTag.nil : AtTag [] := fun _ h => absurd h (Option.not_mem_none _)

theorem AtTag.cons (text : Text) : AtTag ('<' :: text) := fun _ h => (Option.some.inj h).symm

theorem exists_image_eq (template : Template) {rest : Text} (h : AtTag rest) :
    ∃ more, AtTag more ∧ template.image ++ rest = template.leading ++ more := by
  match template with
  | .nil => exact ⟨rest, h, rfl⟩
  | .literal text rest' =>
    obtain ⟨more, hmore, heq⟩ := rest'.exists_image_eq h
    exact ⟨more, hmore, by rw [leading, List.append_assoc, ← heq, ← List.append_assoc]; rfl⟩
  | .loop .. => exact ⟨_, .cons _, rfl⟩
  | .chain .. => exact ⟨_, .cons _, rfl⟩

/-- Behind the text at its front, a marked template goes on with a tag or a comment. -/
theorem exists_marked_eq (template : Template) {rest : Text} (h : AtTag rest) :
    ∃ more, AtTag more ∧ template.marked ++ rest = template.leading ++ more := by
  match template with
  | .nil => exact ⟨rest, h, rfl⟩
  | .literal text rest' =>
    obtain ⟨more, hmore, heq⟩ := rest'.exists_marked_eq h
    exact ⟨more, hmore, by rw [leading, List.append_assoc, ← heq, ← List.append_assoc]; rfl⟩
  | .loop .. => exact ⟨_, .cons _, rfl⟩
  | .chain .. => exact ⟨_, .cons _, rfl⟩

theorem IsText.eq_leading {template : Template} (h : template.IsText) :
    template.image = template.leading ∧ template.marked = template.leading := by
  match template with
  | .nil => exact ⟨rfl, rfl⟩
  | .literal text rest =>
    have hrest : rest.IsText := h
    exact ⟨congrArg (text.text ++ ·) hrest.eq_leading.1, congrArg (text.text ++ ·) hrest.eq_leading.2⟩

end Template

end FlowTemplate
