/-
The outline of a text: what a pass over one construct finds in it, from the first keyword to the last,
and within every body it compiles. An outline carries the readings it is made of, so there is one for
every text (`Outline.of`) and what is proved by induction on outlines holds of every text, well formed
or not. The output of a pass, how deep it descends and what it leaves as text are read off the outline.
-/
import FlowTemplate.Proofs.Outline.Arm

namespace FlowTemplate

/-! ## Pieces -/

/-- A construct that was read from a text: a loop with the groups that spell it, or the arms of a
chain and why it breaks off if a broken arm follows them. -/
inductive Piece : Construct → Type
  | loop (groups : Groups) (found : Loop)
      (read : Loop.ofHeader? groups.header.inside groups.body.inside = some found) : Piece .loops
  | chain (arms : List Arm) (broken? : Option NoGroup) : Piece .chains

namespace Piece

variable {construct : Construct}

/-- The texts in a piece that are compiled by themselves. -/
def contents : Piece construct → List Text
  | loop _ found _ => [found.content]
  | chain arms _ => arms.map Arm.content

/-- The headers in a piece, as they stand between their parentheses. -/
def headers : Piece construct → List Text
  | loop groups _ _ => [groups.header.inside]
  | chain arms _ => arms.filterMap fun arm => arm.header?.map Group.inside

/-- The markup for a piece whose contents are compiled by `compile`. -/
def markup (tag : Text) (compile : Text → Text) : Piece construct → Text
  | loop _ found _ => Container.ofLoop tag { found with content := compile found.content }
  | chain arms _ =>
    Container.ofChain tag (arms.map fun arm => { arm.branch with content := compile arm.content })

/-- No search for a group of the piece ran off the end of the text. -/
def StaysInside : Piece construct → Prop
  | loop _ _ _ => True
  | chain _ broken? => ∀ why ∈ broken?, ¬ why.RunsOff

end Piece

namespace Construct

/-- The loop that a header and a body spell. -/
def readLoop (groups : Groups) (rest : Text) : Option (Piece .loops × Text) :=
  match h : Loop.ofHeader? groups.header.inside groups.body.inside with
  | none => none
  | some loop => some (.loop groups loop h, rest)

/-- The chain that begins with a header and a body. -/
def readChain (groups : Groups) (rest : Text) : Piece .chains × Text :=
  let continued := Arm.readAll rest
  (.chain (.ofGroups groups :: continued.arms) continued.broken?, continued.rest)

/-- What a construct reads behind the header and the body of a block: the piece and the text behind it.
A loop may have a header that spells none. -/
def read (construct : Construct) (groups : Groups) (rest : Text) : Option (Piece construct × Text) :=
  match construct with
  | loops => readLoop groups rest
  | chains => some (readChain groups rest)

variable {construct : Construct} {groups : Groups} {rest back : Text} {piece : Piece construct}

theorem readLoop_eq_none_iff :
    readLoop groups rest = none ↔ Loop.ofHeader? groups.header.inside groups.body.inside = none := by
  unfold readLoop
  split <;> simp_all

theorem readLoop_of_ofHeader? {loop : Loop}
    (h : Loop.ofHeader? groups.header.inside groups.body.inside = some loop) (rest : Text) :
    readLoop groups rest = some (.loop groups loop h, rest) := by
  unfold readLoop
  split
  next hnone =>
    rw [h] at hnone
    cases hnone
  next found hfound =>
    obtain rfl := Option.some.inj (h.symm.trans hfound)
    rfl

theorem readLoop_eq_some {piece : Piece loops} (h : readLoop groups rest = some (piece, back)) :
    ∃ loop hloop, piece = .loop groups loop hloop ∧ back = rest := by
  unfold readLoop at h
  split at h
  · cases h
  next loop hloop =>
    cases h
    exact ⟨loop, hloop, rfl, rfl⟩

theorem read_suffix (h : construct.read groups rest = some (piece, back)) : back <:+ rest := by
  cases construct with
  | loops =>
    obtain ⟨loop, hloop, rfl, rfl⟩ := readLoop_eq_some h
    exact List.suffix_rfl
  | chains =>
    cases h
    exact Arm.readAll_suffix rest

theorem length_content_lt (h : construct.read groups rest = some (piece, back)) {content : Text}
    (hmem : content ∈ piece.contents) : content.length < (groups.source ++ rest).length := by
  have hbody : groups.body.inside.length < groups.source.length := by
    simp only [Groups.source, Group.source, List.length_append, List.length_cons]
    omega
  rw [List.length_append]
  cases construct with
  | loops =>
    obtain ⟨loop, hloop, rfl, rfl⟩ := readLoop_eq_some h
    rw [List.mem_singleton.1 hmem, Loop.content_of_ofHeader? hloop]
    omega
  | chains =>
    cases h
    have hmem : content ∈ List.map Arm.content (.ofGroups groups :: (Arm.readAll rest).arms) := hmem
    obtain ⟨arm, harm, rfl⟩ := List.mem_map.1 hmem
    rcases List.mem_cons.1 harm with rfl | harm
    · have := (Arm.ofGroups groups).length_content_lt
      exact Nat.lt_of_lt_of_le this (Nat.le_add_right _ _)
    · have := Arm.length_content_lt_of_mem harm
      omega

end Construct

/-! ## Outlines -/

/-- What a pass finds in a text. -/
inductive Outline (construct : Construct) : Text → Type
  /-- The keyword does not stand in the text. -/
  | plain {text : Text} (cut : Text.cutKeyword? construct.keyword text = none) :
    Outline construct text
  /-- A group behind the first keyword does not close, so nothing more is read. -/
  | stopped {text before after : Text}
    (cut : Text.cutKeyword? construct.keyword text = some (before, after))
    (groups : Groups.read after = .error .unclosed) : Outline construct text
  /-- A group behind the first keyword does not open, so the reading goes on behind the keyword. -/
  | skipped {text before after : Text} {why : NoGroup}
    (cut : Text.cutKeyword? construct.keyword text = some (before, after))
    (groups : Groups.read after = .error why) (opens : why ≠ .unclosed)
    (rest : Outline construct after) : Outline construct text
  /-- The first block has a header that spells nothing, so the reading goes on behind the block. -/
  | rejected {text before after back : Text} {groups : Groups}
    (cut : Text.cutKeyword? construct.keyword text = some (before, after))
    (block : Groups.read after = .ok (groups, back)) (piece : construct.read groups back = none)
    (rest : Outline construct back) : Outline construct text
  /-- The first block begins a piece, and the reading goes on behind the piece. -/
  | compiled {text before after back left : Text} {groups : Groups} {piece : Piece construct}
    (cut : Text.cutKeyword? construct.keyword text = some (before, after))
    (block : Groups.read after = .ok (groups, back))
    (read : construct.read groups back = some (piece, left))
    (contents : ∀ content ∈ piece.contents, Outline construct content)
    (rest : Outline construct left) : Outline construct text

/-- A function on the members of a list, as one on all texts. -/
def onMembers {α : Type} [Inhabited α] {list : List Text} (f : ∀ text ∈ list, α) (text : Text) : α :=
  if h : text ∈ list then f text h else default

theorem onMembers_of_mem {α : Type} [Inhabited α] {list : List Text} (f : ∀ text ∈ list, α) {text : Text}
    (h : text ∈ list) : onMembers f text = f text h := dif_pos h

namespace Outline

variable {construct : Construct} {text : Text}

theorem length_after_lt {before after : Text}
    (h : Text.cutKeyword? construct.keyword text = some (before, after)) :
    after.length < text.length := by
  have := congrArg List.length ((Text.cutKeyword?_eq_some_iff construct.isKeyword).1 h).1
  simp only [List.length_append, List.length_cons] at this
  omega

section

variable {before after back left content : Text} {groups : Groups} {piece : Piece construct}
  (hcut : Text.cutKeyword? construct.keyword text = some (before, after))
  (hgroups : Groups.read after = .ok (groups, back))
include hcut hgroups

theorem length_back_lt : back.length < text.length := by
  have hafter := length_after_lt hcut
  have hlength := congrArg List.length (Groups.read_eq_ok_iff.1 hgroups)
  rw [List.length_append] at hlength
  omega

theorem length_left_lt (hread : construct.read groups back = some (piece, left)) :
    left.length < text.length :=
  Nat.lt_of_le_of_lt (Construct.read_suffix hread).length_le (length_back_lt hcut hgroups)

theorem length_content_lt (hread : construct.read groups back = some (piece, left))
    (hmem : content ∈ piece.contents) : content.length < text.length := by
  have hafter := length_after_lt hcut
  have hlength := congrArg List.length (Groups.read_eq_ok_iff.1 hgroups)
  have hcontent := Construct.length_content_lt hread hmem
  omega

end

/-- The outline of a text. -/
def of (construct : Construct) (text : Text) : Outline construct text :=
  match hcut : Text.cutKeyword? construct.keyword text with
  | none => .plain hcut
  | some (before, after) =>
    have := length_after_lt hcut
    match hgroups : Groups.read after with
    | .error why =>
      if h : why = .unclosed then .stopped hcut (h ▸ hgroups) else .skipped hcut hgroups h (of construct after)
    | .ok (groups, back) =>
      match hread : construct.read groups back with
      | none =>
        have := length_back_lt hcut hgroups
        .rejected hcut hgroups hread (of construct back)
      | some (piece, left) =>
        have := length_left_lt hcut hgroups hread
        .compiled hcut hgroups hread
          (fun content hmem =>
            have := length_content_lt hcut hgroups hread hmem
            of construct content)
          (of construct left)
termination_by text.length

/-- What the pass makes of the text. -/
def markup (tag : Text) {text : Text} : Outline construct text → Text
  | plain _ => text
  | stopped _ _ => text
  | @skipped _ _ before _ _ _ _ _ rest => before ++ ('@' :: construct.keyword ++ rest.markup tag)
  | @rejected _ _ before _ _ groups _ _ _ rest =>
    before ++ ('@' :: construct.keyword ++ (groups.source ++ rest.markup tag))
  | @compiled _ _ before _ _ _ _ piece _ _ _ contents rest =>
    before ++ (piece.markup tag (onMembers fun content h => (contents content h).markup tag) ++
      rest.markup tag)

/-- How many texts are nested in the text, itself not counted. -/
def depth {text : Text} : Outline construct text → Nat
  | plain _ => 0
  | stopped _ _ => 0
  | skipped _ _ _ rest => rest.depth
  | rejected _ _ _ rest => rest.depth
  | @compiled _ _ _ _ _ _ _ piece _ _ _ contents rest =>
    (piece.contents.map fun content =>
      onMembers (fun content h => (contents content h).depth) content + 1).foldr max rest.depth

/-- The headers of all pieces that the pass compiles, at every depth. -/
def headers {text : Text} : Outline construct text → List Text
  | plain _ => []
  | stopped _ _ => []
  | skipped _ _ _ rest => rest.headers
  | rejected _ _ _ rest => rest.headers
  | @compiled _ _ _ _ _ _ _ piece _ _ _ contents rest =>
    piece.headers ++ (piece.contents.flatMap (onMembers fun content h => (contents content h).headers) ++
      rest.headers)

/-- A keyword is left as text, at some depth. -/
def Leaves {text : Text} : Outline construct text → Prop
  | plain _ => False
  | stopped _ _ => True
  | skipped _ _ _ _ => True
  | rejected _ _ _ _ => True
  | @compiled _ _ _ _ _ _ _ piece _ _ _ contents rest =>
    (∃ content, ∃ h : content ∈ piece.contents, (contents content h).Leaves) ∨ rest.Leaves

/-- No search for a group in the text itself ran off its end. -/
def StaysInside {text : Text} : Outline construct text → Prop
  | plain _ => True
  | stopped _ _ => False
  | @skipped _ _ _ _ why _ _ _ rest => ¬ why.RunsOff ∧ rest.StaysInside
  | rejected _ _ _ rest => rest.StaysInside
  | @compiled _ _ _ _ _ _ _ piece _ _ _ _ rest => piece.StaysInside ∧ rest.StaysInside

/-- The text behind the last piece or keyword that was read. -/
def tail {text : Text} : Outline construct text → Text
  | plain _ => text
  | stopped _ _ => text
  | skipped _ _ _ rest => rest.tail
  | rejected _ _ _ rest => rest.tail
  | compiled _ _ _ _ rest => rest.tail

end Outline

end FlowTemplate
