/-
Groups, keywords and blocks read from the front of a text, without offsets. A reader returns what it
read and the text behind it, so that its answer is an equation between texts (`Group.read_eq_ok_iff`,
`cutKeyword?_eq_some_iff`), and more text behind changes nothing unless the search for a group ran off
the end (`Groups.read_append`). The readers that count offsets find the same (`locate_of_read`).
-/
import FlowTemplate.Proofs.Keyword
import FlowTemplate.Proofs.Template.Reading

namespace FlowTemplate

open Fault Delimiter

/-- Why no group is read at the front of a text. -/
inductive NoGroup where
  /-- There are only blanks up to the end of the text. -/
  | atEnd
  /-- Another character stands where the group would open. -/
  | otherwise
  /-- The group opens, but the text ends before it closes. -/
  | unclosed
  deriving DecidableEq, Repr

/-- A search for a group that runs off the end of its text. -/
def NoGroup.RunsOff (why : NoGroup) : Prop := why ≠ .otherwise

/-- The kind of fault that is reported where no group is read. -/
def NoGroup.Reports (why : NoGroup) (fault : Fault) : Prop :=
  match why with
  | .unclosed => ∃ position, fault = .unbalanced position
  | _ => ∃ position header, fault = .malformedHeader position header

theorem NoGroup.Reports.shift {why : NoGroup} {fault : Fault} (h : why.Reports fault) (n : Nat) :
    why.Reports (fault.shift n) := by
  cases why with
  | unclosed =>
    obtain ⟨position, rfl⟩ := h
    exact ⟨_, rfl⟩
  | atEnd | otherwise =>
    obtain ⟨position, header, rfl⟩ := h
    exact ⟨_, _, rfl⟩

namespace Text

theorem trimStart_append_of_ne_nil {text : Text} (h : text.trimStart ≠ []) (more : Text) :
    (text ++ more).trimStart = text.trimStart ++ more := by
  rw [trimStart, List.dropWhile_append]
  split
  next hempty => exact absurd (List.isEmpty_iff.1 hempty) h
  next => rfl

/-- The blanks at the front of a text. -/
def leading (text : Text) : Template.Blanks :=
  ⟨text.takeWhile isBlank, fun _ hc => List.mem_takeWhile_imp hc⟩

theorem leading_append_trimStart (text : Text) : text.leading.text ++ text.trimStart = text :=
  List.takeWhile_append_dropWhile

theorem leading_blanks_append (blanks : Template.Blanks) {text : Text}
    (h : ∀ c ∈ text.head?, isBlank c = false) : (blanks.text ++ text).leading = blanks := by
  obtain ⟨front, hfront⟩ := blanks
  have hnone : text.takeWhile isBlank = [] := by
    cases text with
    | nil => rfl
    | cons c cs => exact List.takeWhile_cons_of_neg (by simpa using h c rfl)
  have htake : (front ++ text).takeWhile isBlank = front := by
    rw [List.takeWhile_append_of_pos hfront, hnone, List.append_nil]
  simp only [leading, htake]

end Text

/-! ## Groups -/

namespace Delimiter

/-- A text cut at the delimiter that closes the group it stands in. -/
def cutClosing? (kind : Delimiter) (text : Text) : Option (Text × Text) :=
  (kind.closingOffset? 1 text).map fun offset => (text.take offset, text.drop (offset + 1))

theorem cutClosing?_eq_some_iff {kind : Delimiter} {text inside rest : Text} :
    kind.cutClosing? text = some (inside, rest) ↔
      text = inside ++ kind.closer :: rest ∧ kind.Balanced inside := by
  constructor
  · intro h
    obtain ⟨offset, hoffset, heq⟩ := Option.map_eq_some_iff.1 h
    obtain ⟨front, back, rfl, rfl, hbalanced⟩ := closingOffset?_one_iff.1 hoffset
    simp only [List.take_left, Prod.mk.injEq] at heq
    obtain ⟨rfl, rfl⟩ := heq
    exact ⟨by simp, hbalanced⟩
  · rintro ⟨rfl, hbalanced⟩
    have hoffset := closingOffset?_one_iff.2 ⟨inside, rest, rfl, rfl, hbalanced⟩
    simp [cutClosing?, hoffset]

end Delimiter

/-- A group as it stands in a text, with the blanks before it. -/
structure Group (kind : Delimiter) where
  blanks : Template.Blanks
  inside : Text
  balanced : kind.Balanced inside

namespace Group

variable {kind : Delimiter} {text rest : Text}

/-- A group as it is written. -/
def source (group : Group kind) : Text :=
  group.blanks.text ++ kind.opener :: (group.inside ++ [kind.closer])

/-- The group at the front of a text, behind blanks, and what follows it. -/
def read (kind : Delimiter) (text : Text) : Except NoGroup (Group kind × Text) :=
  match text.trimStart with
  | [] => .error .atEnd
  | c :: cs =>
    if c = kind.opener then
      match h : kind.cutClosing? cs with
      | none => .error .unclosed
      | some (inside, rest) => .ok (⟨text.leading, inside, (cutClosing?_eq_some_iff.1 h).2⟩, rest)
    else .error .otherwise

theorem source_append (group : Group kind) (rest : Text) :
    group.source ++ rest = group.blanks.text ++ kind.opener :: (group.inside ++ kind.closer :: rest) := by
  simp [source]

theorem read_source (group : Group kind) (rest : Text) :
    read kind (group.source ++ rest) = .ok (group, rest) := by
  have hhead : ∀ c ∈ (kind.opener :: (group.inside ++ kind.closer :: rest)).head?, isBlank c = false := by
    simpa using kind.not_isBlank_opener
  have htrim : Text.trimStart (group.source ++ rest) =
      kind.opener :: (group.inside ++ kind.closer :: rest) := by
    rw [source_append, group.blanks.blank.trimStart_append, Text.trimStart_of_head hhead]
  have hleading : Text.leading (group.source ++ rest) = group.blanks := by
    rw [source_append, Text.leading_blanks_append _ hhead]
  have hcut : kind.cutClosing? (group.inside ++ kind.closer :: rest) = some (group.inside, rest) :=
    cutClosing?_eq_some_iff.2 ⟨rfl, group.balanced⟩
  unfold read
  rw [htrim]
  simp only [↓reduceIte, hleading]
  split
  next hnone =>
    rw [hcut] at hnone
    cases hnone
  next inside left hsome =>
    rw [hcut] at hsome
    cases hsome
    rfl

theorem read_eq_ok_iff {group : Group kind} :
    read kind text = .ok (group, rest) ↔ text = group.source ++ rest := by
  constructor
  · intro h
    unfold read at h
    split at h
    · cases h
    next c cs htrim =>
      split at h
      next hc =>
        split at h
        · cases h
        next inside left hcut =>
          cases h
          rw [source_append, ← (cutClosing?_eq_some_iff.1 hcut).1, ← hc, ← htrim,
            Text.leading_append_trimStart]
      next => cases h
  · rintro rfl
    exact read_source group rest

theorem read_eq_atEnd_iff : read kind text = .error .atEnd ↔ text.trimStart = [] := by
  unfold read
  split
  next hnil => simp [hnil]
  next c cs htrim =>
    split
    · split <;> simp [htrim]
    · simp [htrim]

theorem read_eq_otherwise_iff :
    read kind text = .error .otherwise ↔ ∃ c cs, text.trimStart = c :: cs ∧ c ≠ kind.opener := by
  unfold read
  split
  next hnil => simp [hnil]
  next c cs htrim =>
    split
    next hc => split <;> simp [htrim, hc]
    next hc => simp [htrim, hc]

theorem read_eq_unclosed_iff :
    read kind text = .error .unclosed ↔
      ∃ cs, text.trimStart = kind.opener :: cs ∧ kind.cutClosing? cs = none := by
  unfold read
  split
  next hnil => simp [hnil]
  next c cs htrim =>
    split
    next hc =>
      split
      next hnone => simp [htrim, hc, hnone]
      next hsome => simp [htrim, hsome]
    next hc => simp [htrim, hc]

/-- More text behind is left, or makes no difference, unless the search ran off the end. -/
theorem read_append (more : Text) (h : ∀ why, read kind text = .error why → ¬ why.RunsOff) :
    read kind (text ++ more) =
      (read kind text).map fun (group, rest) => (group, rest ++ more) := by
  cases hread : read kind text with
  | ok found =>
    obtain ⟨group, rest⟩ := found
    rw [read_eq_ok_iff.1 hread, List.append_assoc, read_source]
    rfl
  | error why =>
    obtain rfl : why = .otherwise := Classical.not_not.1 (h why hread)
    obtain ⟨c, cs, htrim, hc⟩ := read_eq_otherwise_iff.1 hread
    have hmore : Text.trimStart (text ++ more) = c :: (cs ++ more) := by
      rw [Text.trimStart_append_of_ne_nil (by simp [htrim]), htrim, List.cons_append]
    exact read_eq_otherwise_iff.2 ⟨c, cs ++ more, hmore, hc⟩

theorem expectGroup_of_read {group : Group kind} (h : read kind text = .ok (group, rest)) :
    expectGroup text 0 kind.opener =
      .ok ⟨group.blanks.text.length, group.blanks.text.length + group.inside.length + 2⟩ := by
  rw [read_eq_ok_iff.1 h, source_append]
  exact expectGroup_group rest group.blanks.blank group.balanced

theorem expectGroup_of_error {why : NoGroup} (h : read kind text = .error why) :
    ∃ fault, expectGroup text 0 kind.opener = .error fault ∧ why.Reports fault := by
  obtain ⟨blanks, hblanks, htext⟩ := Text.exists_blank_append_trimStart text
  have hhead := Text.head_trimStart text
  generalize hback : text.trimStart = back at htext hhead
  have hskip : skipBlanks text 0 = blanks.length := by rw [htext, skipBlanks_of_blank hblanks hhead]
  have hdrop : text.drop blanks.length = back := by rw [htext, List.drop_left]
  have hget : text[blanks.length]? = back.head? := by
    rw [← hdrop, List.head?_drop]
  have hmissing : back.head? ≠ some kind.opener →
      expectGroup text 0 kind.opener = .error (.malformedHeader blanks.length []) := by
    intro hne
    simp only [expectGroup, hskip, hget, if_neg hne]
  cases why with
  | atEnd =>
    obtain rfl := hback.symm.trans (read_eq_atEnd_iff.1 h)
    exact ⟨_, hmissing (by simp), _, _, rfl⟩
  | otherwise =>
    obtain ⟨c, cs, htrim, hc⟩ := read_eq_otherwise_iff.1 h
    obtain rfl := hback.symm.trans htrim
    exact ⟨_, hmissing (by simpa using hc), _, _, rfl⟩
  | unclosed =>
    obtain ⟨cs, htrim, hcut⟩ := read_eq_unclosed_iff.1 h
    obtain rfl := hback.symm.trans htrim
    have hnone : kind.closingOffset? 1 cs = none := Option.map_eq_none_iff.1 hcut
    refine ⟨.unbalanced blanks.length, ?_, _, rfl⟩
    simp only [expectGroup, hskip, hget, List.head?_cons, ↓reduceIte, findClosing, hdrop,
      ofOpener?_opener, hnone, Except.map]

end Group

/-! ## A header and a body -/

/-- The header and the body of a block. -/
structure Groups where
  header : Group .paren
  body : Group .brace

namespace Groups

variable {text rest : Text}

/-- A header and a body as they are written. -/
def source (groups : Groups) : Text := groups.header.source ++ groups.body.source

/-- The header and the body at the front of a text, and what follows them. -/
def read (text : Text) : Except NoGroup (Groups × Text) := do
  let (header, text) ← Group.read .paren text
  let (body, text) ← Group.read .brace text
  return (⟨header, body⟩, text)

theorem read_of_header {header : Group .paren} (h : Group.read .paren text = .ok (header, rest)) :
    read text = (Group.read .brace rest).map fun (body, left) => (⟨header, body⟩, left) := by
  rw [read, h]
  simp only [bind, Except.bind, pure, Except.pure]
  cases Group.read .brace rest <;> rfl

theorem read_of_no_header {why : NoGroup} (h : Group.read .paren text = .error why) :
    read text = .error why := by
  rw [read, h]
  rfl

theorem read_source (groups : Groups) (rest : Text) :
    read (groups.source ++ rest) = .ok (groups, rest) := by
  rw [source, List.append_assoc, read_of_header (Group.read_source _ _), Group.read_source]
  rfl

theorem read_eq_ok_iff {groups : Groups} :
    read text = .ok (groups, rest) ↔ text = groups.source ++ rest := by
  constructor
  · intro h
    obtain ⟨⟨header, left⟩, hheader, h⟩ := Except.bind_eq_ok_iff.1 h
    obtain ⟨⟨body, behind⟩, hbody, hpair⟩ := Except.bind_eq_ok_iff.1 h
    cases hpair
    rw [source, List.append_assoc, ← Group.read_eq_ok_iff.1 hbody]
    exact Group.read_eq_ok_iff.1 hheader
  · rintro rfl
    exact read_source groups rest

theorem read_eq_error_iff {why : NoGroup} :
    read text = .error why ↔ Group.read .paren text = .error why ∨
      ∃ header rest, Group.read .paren text = .ok (header, rest) ∧ Group.read .brace rest = .error why := by
  rw [read, Except.bind_eq_error_iff]
  refine or_congr_right ⟨?_, ?_⟩
  · rintro ⟨⟨header, rest⟩, hheader, h⟩
    refine ⟨header, rest, hheader, ?_⟩
    rcases Except.bind_eq_error_iff.1 h with hbody | ⟨body, -, hpair⟩
    · exact hbody
    · cases hpair
  · rintro ⟨header, rest, hheader, hbody⟩
    exact ⟨(header, rest), hheader, Except.bind_eq_error_iff.2 (.inl hbody)⟩

theorem read_append (more : Text) (h : ∀ why, read text = .error why → ¬ why.RunsOff) :
    read (text ++ more) = (read text).map fun (groups, rest) => (groups, rest ++ more) := by
  cases hheader : Group.read .paren text with
  | error why =>
    rw [read_of_no_header hheader] at h ⊢
    have hmore : Group.read .paren (text ++ more) = _ := Group.read_append more fun found hfound => by
      rw [hheader] at hfound
      cases hfound
      exact h why rfl
    rw [hheader] at hmore
    rw [read_of_no_header hmore]
    rfl
  | ok found =>
    obtain ⟨header, left⟩ := found
    rw [read_of_header hheader] at h ⊢
    have hmore : Group.read .paren (text ++ more) = .ok (header, left ++ more) := by
      rw [Group.read_eq_ok_iff.1 hheader, List.append_assoc, Group.read_source]
    rw [read_of_header hmore, Group.read_append more fun why hwhy => h why (by rw [hwhy]; rfl)]
    cases Group.read .brace left <;> rfl

theorem read_ok_append {groups : Groups} (h : read text = .ok (groups, rest)) (more : Text) :
    read (text ++ more) = .ok (groups, rest ++ more) := by
  rw [read_eq_ok_iff.1 h, List.append_assoc, read_source]

theorem read_error_append {why : NoGroup} (h : read text = .error why) (hwhy : ¬ why.RunsOff)
    (more : Text) : read (text ++ more) = .error why := by
  rw [read_append more fun found hfound => by rw [h] at hfound; cases hfound; exact hwhy, h]
  rfl

/-- The search with offsets finds the same header and body. -/
theorem groups_of_read {groups : Groups} (h : read text = .ok (groups, rest)) :
    ∃ header body, Block.groups text 0 = .ok (header, body) ∧
      header.innerText text = groups.header.inside ∧ body.innerText text = groups.body.inside ∧
      body.stop = groups.source.length := by
  have hnone : Text.Blank [] := .nil
  let layout : Template.Layout := ⟨groups.header.blanks, ⟨[], hnone⟩, ⟨[], hnone⟩, groups.body.blanks⟩
  have hsource : layout.wrap groups.header.inside ++ Template.inBraces groups.body.inside =
      groups.source := by
    simp [Template.Layout.wrap, Template.inBraces, source, Group.source, layout, opener, closer]
  obtain ⟨header, body, hgroups, hheader, hbody, hstop⟩ :=
    Template.groups_wrap layout rest groups.header.balanced groups.body.balanced
  rw [← List.append_assoc, hsource, ← read_eq_ok_iff.1 h] at hgroups hheader hbody
  refine ⟨header, body, hgroups, ?_, hbody, by rw [hstop, hsource]⟩
  simpa [layout] using hheader

theorem groups_of_error {why : NoGroup} (h : read text = .error why) :
    ∃ fault, Block.groups text 0 = .error fault ∧ why.Reports fault := by
  rcases read_eq_error_iff.1 h with hheader | ⟨header, left, hheader, hbody⟩
  · obtain ⟨fault, hfault, hreports⟩ := Group.expectGroup_of_error hheader
    exact ⟨fault, Except.bind_eq_error_iff.2 (.inl hfault), hreports⟩
  · obtain ⟨fault, hfault, hreports⟩ := Group.expectGroup_of_error hbody
    have htext := Group.read_eq_ok_iff.1 hheader
    have hmoved := expectGroup_append header.source left 0 '{'
    have hlength : header.source.length + 0 =
        header.blanks.text.length + header.inside.length + 2 := by
      simp [Group.source]
      omega
    rw [hlength, ← htext] at hmoved
    refine ⟨fault.shift header.source.length, ?_, hreports.shift _⟩
    have hfirst : expectGroup text 0 '(' = .ok _ := Group.expectGroup_of_read hheader
    rw [Block.groups, hfirst]
    simp only [bind, Except.bind, hmoved]
    rw [show expectGroup left 0 '{' = .error fault from hfault]
    rfl

end Groups

/-! ## The first block -/

namespace Block

variable {text keyword before after rest : Text}

/-- The first block is sought behind the first mention of its keyword. -/
theorem locate_of_cut (hk : keyword.IsKeyword)
    (hcut : Text.cutKeyword? keyword text = some (before, after)) :
    locate text keyword 0 = shiftReading before.length (fun block => some (block.shift before.length))
      (ofKeywordAt ('@' :: keyword ++ after) keyword 0) := by
  have hmoved := ofKeywordAt_append before ('@' :: keyword ++ after) keyword 0
  rw [← ((Text.cutKeyword?_eq_some_iff hk).1 hcut).1, Nat.add_zero] at hmoved
  simp only [locate, List.drop_zero, Text.offsetOf?_afterKeyword?, hcut, Option.map_some, Nat.zero_add,
    hmoved]
  cases ofKeywordAt ('@' :: keyword ++ after) keyword 0 <;> rfl

theorem locate_of_no_cut (h : Text.cutKeyword? keyword text = none) :
    locate text keyword 0 = .ok none := by
  simp only [locate, List.drop_zero, Text.offsetOf?_afterKeyword?, h, Option.map_none]

/-- A header and a body behind the first mention are the first block. -/
theorem locate_of_read (hk : keyword.IsKeyword) {groups : Groups}
    (hcut : Text.cutKeyword? keyword text = some (before, after))
    (h : Groups.read after = .ok (groups, rest)) :
    ∃ block, locate text keyword 0 = .ok (some block) ∧ block.start = before.length ∧
      block.stop = (before ++ ('@' :: keyword ++ groups.source)).length ∧
      block.headerText text = groups.header.inside ∧ block.bodyText text = groups.body.inside := by
  obtain ⟨header, body, hgroups, hheader, hbody, hstop⟩ := Groups.groups_of_read h
  obtain ⟨-, hh, -, hb⟩ := groups_ok hgroups
  have hat : ofKeywordAt ('@' :: keyword ++ after) keyword 0 = .ok ⟨keyword, 0,
      header.shift ('@' :: keyword).length, body.shift ('@' :: keyword).length⟩ := by
    rw [ofKeywordAt, Template.groups_front, hgroups]
    rfl
  have hinner : ∀ span : Span, 0 < span.stop →
      ((span.shift ('@' :: keyword).length).shift before.length).innerText text =
        span.innerText after := by
    intro span hpos
    rw [((Text.cutKeyword?_eq_some_iff hk).1 hcut).1, Span.innerText_shift _ _ (Nat.lt_of_lt_of_le hpos
      (Nat.le_add_left _ _)), Span.innerText_shift _ _ hpos]
  refine ⟨_, by rw [locate_of_cut hk hcut, hat]; rfl, rfl, ?_, ?_, ?_⟩
  · simp only [stop, shift, Span.shift, hstop, List.length_append]
  · exact (hinner header hh.stop_pos).trans hheader
  · exact (hinner body hb.stop_pos).trans hbody

/-- The first mention begins no block where its header or its body is not read. -/
theorem locate_of_no_read (hk : keyword.IsKeyword) {why : NoGroup}
    (hcut : Text.cutKeyword? keyword text = some (before, after))
    (h : Groups.read after = .error why) :
    ∃ fault, locate text keyword 0 = .error fault ∧ why.Reports fault ∧
      ∀ position header, fault = .malformedHeader position header → position = before.length := by
  obtain ⟨fault, hfault, hreports⟩ := Groups.groups_of_error h
  rw [locate_of_cut hk hcut, ofKeywordAt, Template.groups_front, hfault]
  cases why with
  | unclosed =>
    obtain ⟨position, rfl⟩ := hreports
    exact ⟨_, rfl, ⟨_, rfl⟩, fun _ _ heq => by cases heq⟩
  | atEnd | otherwise =>
    obtain ⟨position, header, rfl⟩ := hreports
    refine ⟨_, rfl, ⟨_, _, rfl⟩, fun _ _ heq => ?_⟩
    cases heq
    rfl

/-- A block that was located stands in the text as its keyword, a header and a body. -/
theorem exists_groups (hk : keyword.IsKeyword) {start : Nat} {block : Block}
    (h : locate text keyword start = .ok (some block)) :
    ∃ (before : Text) (groups : Groups) (rest : Text),
      text = before ++ ('@' :: keyword ++ (groups.source ++ rest)) ∧ block.start = before.length ∧
      block.stop = (before ++ ('@' :: keyword ++ groups.source)).length ∧
      block.headerText text = groups.header.inside ∧ block.bodyText text = groups.body.inside := by
  obtain ⟨pre, left, rfl, rfl⟩ : ∃ pre left, text = pre ++ left ∧ start = pre.length := by
    refine ⟨text.take start, text.drop start, (List.take_append_drop start text).symm, ?_⟩
    by_contra hlong
    have hdrop : text.drop start = [] := by
      rw [List.drop_eq_nil_iff]
      rw [List.length_take] at hlong
      omega
    rw [locate, hdrop] at h
    cases h
  cases hcut : Text.cutKeyword? keyword left with
  | none =>
    cases h.symm.trans (locate_append_of_eq (locate_of_no_cut hcut) pre)
  | some cut =>
    obtain ⟨before, after⟩ := cut
    cases hread : Groups.read after with
    | error why =>
      obtain ⟨fault, hfault, -⟩ := locate_of_no_read hk hcut hread
      cases h.symm.trans (locate_append_of_eq hfault pre)
    | ok found =>
      obtain ⟨groups, rest⟩ := found
      obtain ⟨front, hfront, hstart, hstop, hheader, hbody⟩ := locate_of_read hk hcut hread
      cases h.symm.trans (locate_append_of_eq hfront pre)
      obtain ⟨-, -, hwithin⟩ := locate_ok hfront
      refine ⟨pre ++ before, groups, rest, ?_, ?_, ?_, ?_, ?_⟩
      · rw [((Text.cutKeyword?_eq_some_iff hk).1 hcut).1, Groups.read_eq_ok_iff.1 hread,
          List.append_assoc]
      · rw [shift_start, hstart, List.length_append]
      · rw [shift_stop, hstop]
        simp only [List.length_append]
        omega
      · exact (Span.innerText_shift pre left hwithin.header.stop_pos).trans hheader
      · exact (Span.innerText_shift pre left hwithin.body.stop_pos).trans hbody

end Block

end FlowTemplate
