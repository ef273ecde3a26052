/-
Loops and chains read from texts, without offsets. A loop is what its header and its body spell. A
chain is its first arm and those that `Arm.readAll` reads behind it, one after another; more text
behind changes none of them, unless the search for a group ran off the end or the text goes on with
one arm more (`Arm.readAll_append`).
-/
import FlowTemplate.Proofs.Outline.Group
import FlowTemplate.Proofs.Template.Compile

namespace FlowTemplate

open Fault Delimiter

/-! ## Loops -/

namespace Loop

/-- The loop that a header spells, over a content. -/
def ofHeader? (header content : Text) : Option Loop :=
  (clause? (header.trim.cut ';').1.trim).map fun (item, iterable) =>
    ⟨item, iterable.trim, content, trackOf ((header.trim.cut ';').2.getD [])⟩

/-- The reading with offsets gives the same loop. -/
theorem result_ofBlock_eq (text : Text) (block : Block) :
    (ofBlock text block).result =
      match ofHeader? (block.headerText text) (block.bodyText text) with
      | none => .error (.malformedHeader block.start (block.headerText text).trim)
      | some loop => .ok loop := by
  rw [result_ofBlock, ofHeader?]
  cases clause? ((block.headerText text).trim.cut ';').1.trim <;> rfl

theorem content_of_ofHeader? {header content : Text} {loop : Loop}
    (h : ofHeader? header content = some loop) : loop.content = content := by
  obtain ⟨_, -, rfl⟩ := Option.map_eq_some_iff.1 h
  rfl

end Loop

/-! ## Where a chain goes on -/

namespace Chain

variable {text rest : Text}

/-- An `@else if` behind which a parenthesis stands. -/
theorem afterElseIf?_eq_some_iff :
    afterElseIf? text = some rest ↔
      ∃ blanks gap more : Text, blanks.Blank ∧ gap.Blank ∧ gap ≠ [] ∧ more.Blank ∧
        text = blanks ++ ("@else".toList ++ (gap ++ ("if".toList ++ (more ++ rest)))) ∧
        rest.head? = some '(' := by
  simp only [afterElseIf?, bind, Option.bind_eq_some_iff]
  constructor
  · rintro ⟨found, ⟨after, helse, hgap⟩, left, hif, h⟩
    split at h
    next hhead =>
      cases h
      obtain ⟨blanks, hblanks, htext⟩ := text.exists_blank_append_trimStart
      obtain ⟨gap, hblank, hne, rfl⟩ := Text.afterBlanks?_eq_some hgap
      obtain ⟨more, hmore, hleft⟩ := left.exists_blank_append_trimStart
      refine ⟨blanks, gap, more, hblanks, hblank, hne, hmore, ?_, hhead⟩
      rw [← hleft, ← Text.after?_eq_some_iff.1 hif, ← Text.after?_eq_some_iff.1 helse]
      exact htext
    next => cases h
  · rintro ⟨blanks, gap, more, hblanks, hgap, hne, hmore, rfl, hhead⟩
    have hrest : rest.trimStart = rest := Text.trimStart_of_head fun c hc => by
      rw [hhead] at hc
      cases hc
      decide
    have hif : Text.trimStart ("if".toList ++ (more ++ rest)) = "if".toList ++ (more ++ rest) :=
      Text.trimStart_of_head (by simp; decide)
    refine ⟨"if".toList ++ (more ++ rest), ⟨gap ++ ("if".toList ++ (more ++ rest)), ?_, ?_⟩,
      more ++ rest, Text.after?_append _ _, ?_⟩
    · rw [trimStart_atElse ⟨blanks, hblanks⟩]
      exact Text.after?_append _ _
    · rw [Text.afterBlanks?_append hgap hne, hif]
    · rw [hmore.trimStart_append, hrest, if_pos hhead]

/-- An `@else` behind which a brace stands. -/
theorem afterElse?_eq_some_iff :
    afterElse? text = some rest ↔
      ∃ blanks more : Text, blanks.Blank ∧ more.Blank ∧
        text = blanks ++ ("@else".toList ++ (more ++ rest)) ∧ rest.head? = some '{' := by
  simp only [afterElse?, bind, Option.bind_eq_some_iff]
  constructor
  · rintro ⟨after, helse, h⟩
    split at h
    next hhead =>
      cases h
      obtain ⟨blanks, hblanks, htext⟩ := text.exists_blank_append_trimStart
      obtain ⟨more, hmore, hafter⟩ := after.exists_blank_append_trimStart
      refine ⟨blanks, more, hblanks, hmore, ?_, hhead⟩
      rw [← hafter, ← Text.after?_eq_some_iff.1 helse]
      exact htext
    next => cases h
  · rintro ⟨blanks, more, hblanks, hmore, rfl, hhead⟩
    have hrest : rest.trimStart = rest := Text.trimStart_of_head fun c hc => by
      rw [hhead] at hc
      cases hc
      decide
    refine ⟨more ++ rest, ?_, ?_⟩
    · rw [trimStart_atElse ⟨blanks, hblanks⟩]
      exact Text.after?_append _ _
    · rw [hmore.trimStart_append, hrest, if_pos hhead]

theorem afterElseIf?_eq_none_of_else (h : afterElse? text = some rest) : afterElseIf? text = none := by
  rw [Option.eq_none_iff_forall_not_mem]
  intro found hfound
  obtain ⟨blanks, words, hblanks, hwords, rfl, hhead⟩ := afterElse?_eq_some_iff.1 h
  obtain ⟨front, gap, back, hfront, hgap, -, -, htext, -⟩ := afterElseIf?_eq_some_iff.1 hfound
  have htrim := congrArg Text.trimStart htext
  rw [trimStart_atElse ⟨blanks, hblanks⟩, trimStart_atElse ⟨front, hfront⟩] at htrim
  have hafter := congrArg Text.trimStart (List.append_cancel_left htrim)
  have hrest : rest.trimStart = rest := Text.trimStart_of_head fun c hc => by
    rw [hhead] at hc
    cases hc
    decide
  rw [hwords.trimStart_append, hgap.trimStart_append, hrest,
    Text.trimStart_of_head (by simp; decide)] at hafter
  rw [hafter] at hhead
  simp at hhead

end Chain

/-! ## Arms -/

/-- An arm of a chain as it stands in a text. An arm without a header is an `@else`. -/
structure Arm where
  header? : Option (Group .paren)
  body : Group .brace

namespace Arm

variable {text rest more : Text} {arm : Arm}

/-- The arm that a header and a body make. -/
def ofGroups (groups : Groups) : Arm := ⟨some groups.header, groups.body⟩

/-- The header of an arm and its body as they are written. -/
def source (arm : Arm) : Text := ((arm.header?.map Group.source).getD []) ++ arm.body.source

/-- The content of the branch begins at the first character of the body that is no blank. -/
def content (arm : Arm) : Text := arm.body.inside.trimStart

/-- The branch that an arm is read as. -/
def branch (arm : Arm) : Branch :=
  match arm.header? with
  | some header =>
    let condition := Condition.ofHeader header.inside
    ⟨some condition.expression, arm.content, condition.alias?⟩
  | none => ⟨none, arm.content, none⟩

@[simp] theorem content_branch (arm : Arm) : arm.branch.content = arm.content := by
  obtain ⟨_ | header, body⟩ := arm <;> rfl

@[simp] theorem isElse_branch (arm : Arm) : arm.branch.isElse = arm.header?.isNone := by
  obtain ⟨_ | header, body⟩ := arm <;> rfl

/-- What stands before the groups of an arm that continues a chain: one at sign, that of an
`@else`. -/
def IsLead (lead : Text) : Prop :=
  ∃ blanks words : Text, blanks.Blank ∧ lead = blanks ++ ("@else".toList ++ words) ∧ '@' ∉ words

/-- The arm that continues a chain at the front of a text, and what follows it. There is none where
the text goes on otherwise, and a broken one where a group of it is not read. -/
def read (text : Text) : Option (Except NoGroup (Arm × Text)) :=
  match Chain.afterElseIf? text with
  | some ahead => some ((Groups.read ahead).map fun (groups, rest) => (ofGroups groups, rest))
  | none => (Chain.afterElse? text).map fun ahead =>
    (Group.read .brace ahead).map fun (body, rest) => (⟨none, body⟩, rest)

theorem read_of_elseIf {ahead : Text} (h : Chain.afterElseIf? text = some ahead) :
    read text = some ((Groups.read ahead).map fun (groups, rest) => (ofGroups groups, rest)) := by
  rw [read, h]

theorem read_of_else {ahead : Text} (h : Chain.afterElse? text = some ahead) :
    read text = some ((Group.read .brace ahead).map fun (body, rest) => (⟨none, body⟩, rest)) := by
  rw [read, Chain.afterElseIf?_eq_none_of_else h, h]
  rfl

/-- An arm is read behind its lead. -/
theorem read_eq_some_iff {outcome : Except NoGroup (Arm × Text)} :
    read text = some outcome ↔
      (∃ ahead, Chain.afterElseIf? text = some ahead ∧
        outcome = (Groups.read ahead).map fun (groups, rest) => (ofGroups groups, rest)) ∨
      ∃ ahead, Chain.afterElse? text = some ahead ∧
        outcome = (Group.read .brace ahead).map fun (body, rest) => (⟨none, body⟩, rest) := by
  constructor
  · intro h
    unfold read at h
    split at h
    next ahead hahead => exact .inl ⟨ahead, hahead, (Option.some.inj h).symm⟩
    next =>
      obtain ⟨ahead, hahead, houtcome⟩ := Option.map_eq_some_iff.1 h
      exact .inr ⟨ahead, hahead, houtcome.symm⟩
  · rintro (⟨ahead, h, rfl⟩ | ⟨ahead, h, rfl⟩)
    · exact read_of_elseIf h
    · exact read_of_else h

theorem isLead_elseIf {blanks gap more : Text} (hblanks : blanks.Blank) (hgap : gap.Blank)
    (hmore : more.Blank) :
    IsLead (blanks ++ ("@else".toList ++ (gap ++ ("if".toList ++ more)))) := by
  refine ⟨blanks, gap ++ ("if".toList ++ more), hblanks, rfl, ?_⟩
  simp only [List.mem_append, not_or]
  exact ⟨hgap.not_mem (by decide), by decide, hmore.not_mem (by decide)⟩

theorem isLead_else {blanks more : Text} (hblanks : blanks.Blank) (hmore : more.Blank) :
    IsLead (blanks ++ ("@else".toList ++ more)) :=
  ⟨blanks, more, hblanks, rfl, hmore.not_mem (by decide)⟩

/-- Where an arm or a broken one is read stands its lead, and behind it a group opens. -/
theorem exists_lead_of_read {outcome : Except NoGroup (Arm × Text)} (h : read text = some outcome) :
    ∃ lead ahead, IsLead lead ∧ text = lead ++ ahead ∧ ahead ≠ [] ∧
      ∀ front, front ≠ [] → front <+: ahead → ∃ found, read (lead ++ front) = some found := by
  rcases read_eq_some_iff.1 h with ⟨ahead, hahead, -⟩ | ⟨ahead, hahead, -⟩
  · obtain ⟨blanks, gap, more, hblanks, hgap, hne, hmore, rfl, hhead⟩ :=
      Chain.afterElseIf?_eq_some_iff.1 hahead
    refine ⟨_, ahead, isLead_elseIf hblanks hgap hmore, by simp, by rintro rfl; simp at hhead, ?_⟩
    rintro front hfront ⟨back, rfl⟩
    rw [List.head?_append_of_ne_nil _ hfront] at hhead
    exact ⟨_, read_of_elseIf (Chain.afterElseIf?_eq_some_iff.2
      ⟨blanks, gap, more, hblanks, hgap, hne, hmore, by simp, hhead⟩)⟩
  · obtain ⟨blanks, more, hblanks, hmore, rfl, hhead⟩ := Chain.afterElse?_eq_some_iff.1 hahead
    refine ⟨_, ahead, isLead_else hblanks hmore, by simp, by rintro rfl; simp at hhead, ?_⟩
    rintro front hfront ⟨back, rfl⟩
    rw [List.head?_append_of_ne_nil _ hfront] at hhead
    exact ⟨_, read_of_else (Chain.afterElse?_eq_some_iff.2
      ⟨blanks, more, hblanks, hmore, by simp, hhead⟩)⟩

theorem exists_lead_of_read_ok (h : read text = some (.ok (arm, rest))) :
    ∃ lead, IsLead lead ∧ text = lead ++ (arm.source ++ rest) := by
  rcases read_eq_some_iff.1 h with ⟨ahead, hahead, hgroups⟩ | ⟨ahead, hahead, hbody⟩
  · obtain ⟨blanks, gap, more, hblanks, hgap, -, hmore, rfl, -⟩ :=
      Chain.afterElseIf?_eq_some_iff.1 hahead
    cases hread : Groups.read ahead with
    | error why => rw [hread] at hgroups; cases hgroups
    | ok found =>
      obtain ⟨groups, left⟩ := found
      rw [hread] at hgroups
      cases hgroups
      refine ⟨_, isLead_elseIf hblanks hgap hmore, ?_⟩
      have hsource : (ofGroups groups).source = groups.source := rfl
      rw [hsource, ← Groups.read_eq_ok_iff.1 hread]
      simp
  · obtain ⟨blanks, more, hblanks, hmore, rfl, -⟩ := Chain.afterElse?_eq_some_iff.1 hahead
    cases hread : Group.read .brace ahead with
    | error why => rw [hread] at hbody; cases hbody
    | ok found =>
      obtain ⟨body, left⟩ := found
      rw [hread] at hbody
      cases hbody
      refine ⟨_, isLead_else hblanks hmore, ?_⟩
      have hsource : (Arm.mk none body).source = body.source := rfl
      rw [hsource, ← Group.read_eq_ok_iff.1 hread]
      simp

theorem length_lt_of_read (h : read text = some (.ok (arm, rest))) : rest.length < text.length := by
  obtain ⟨lead, ⟨blanks, words, -, rfl, -⟩, rfl⟩ := exists_lead_of_read_ok h
  simp only [List.length_append, String.length_toList]
  have : "@else".length = 5 := rfl
  omega

/-- More text behind an arm is left behind it, unless the search for a group ran off the end. -/
theorem read_append (more : Text) {outcome : Except NoGroup (Arm × Text)}
    (h : read text = some outcome) (hwhy : ∀ why, outcome = .error why → ¬ why.RunsOff) :
    read (text ++ more) = some (outcome.map fun (arm, rest) => (arm, rest ++ more)) := by
  rcases read_eq_some_iff.1 h with ⟨ahead, hahead, rfl⟩ | ⟨ahead, hahead, rfl⟩
  · obtain ⟨blanks, gap, words, hblanks, hgap, hne, hwords, rfl, hhead⟩ :=
      Chain.afterElseIf?_eq_some_iff.1 hahead
    have hmore : Chain.afterElseIf? _ = some (ahead ++ more) := Chain.afterElseIf?_eq_some_iff.2
      ⟨blanks, gap, words, hblanks, hgap, hne, hwords, rfl, by simp [hhead]⟩
    simp only [List.append_assoc, read_of_elseIf hmore]
    rw [Groups.read_append more fun why hread => hwhy why (by rw [hread]; rfl)]
    cases Groups.read ahead <;> rfl
  · obtain ⟨blanks, words, hblanks, hwords, rfl, hhead⟩ := Chain.afterElse?_eq_some_iff.1 hahead
    have hmore : Chain.afterElse? _ = some (ahead ++ more) := Chain.afterElse?_eq_some_iff.2
      ⟨blanks, words, hblanks, hwords, rfl, by simp [hhead]⟩
    simp only [List.append_assoc, read_of_else hmore]
    rw [Group.read_append more fun why hread => hwhy why (by rw [hread]; rfl)]
    cases Group.read .brace ahead <;> rfl

theorem IsLead.at_unique {lead before after : Text} (h : IsLead lead)
    (heq : lead = before ++ '@' :: after) : ∃ words, after = "else".toList ++ words := by
  obtain ⟨blanks, words, hblanks, rfl, hwords⟩ := h
  have hfree : '@' ∉ blanks := hblanks.not_mem (by decide)
  have hafter : '@' ∉ "else".toList ++ words := List.not_mem_append (by decide) hwords
  refine ⟨words, ?_⟩
  rcases List.append_eq_append_iff.1 heq with ⟨x, rfl, hx⟩ | ⟨x, rfl, hx⟩
  · cases x with
    | nil => exact (List.cons.inj hx).2.symm
    | cons c cs =>
      have hwords : "else".toList ++ words = cs ++ '@' :: after := (List.cons.inj hx).2
      rw [hwords] at hafter
      simp at hafter
  · cases x with
    | nil => exact (List.cons.inj hx).2
    | cons c cs =>
      obtain rfl : '@' = c := (List.cons.inj hx).1
      simp at hfree

theorem IsLead.not_mentions {lead front back : Text} (h : IsLead lead) (heq : lead = front ++ back) :
    ¬ front.Mentions Construct.chains.keyword := by
  rintro ⟨before, rest, rfl, -⟩
  obtain ⟨words, hwords⟩ := h.at_unique
    (heq.trans (by rw [List.append_assoc, List.cons_append, List.cons_append]))
  cases hwords

/-- A text that does not continue a chain does not either with more text behind, if an `@if` stands
in it, or if it has no at sign and what is behind does not begin with an `@else`. -/
theorem read_eq_none_append (h : read text = none)
    (hmore : text.Mentions Construct.chains.keyword ∨ ('@' ∉ text ∧ Chain.Ends more)) :
    read (text ++ more) = none := by
  rw [Option.eq_none_iff_forall_not_mem]
  intro outcome houtcome
  obtain ⟨lead, ahead, hlead, heq, -, hreads⟩ := exists_lead_of_read houtcome
  rcases hmore with hm | ⟨hfree, hends⟩
  · rcases List.append_eq_append_iff.1 heq with ⟨x, rfl, -⟩ | ⟨x, rfl, hx⟩
    · exact hlead.not_mentions rfl hm
    · cases x with
      | nil => exact hlead.not_mentions (List.append_nil _).symm (by simpa using hm)
      | cons c cs =>
        obtain ⟨found, hfound⟩ := hreads (c :: cs) (List.cons_ne_nil _ _) ⟨more, hx.symm⟩
        rw [h] at hfound
        cases hfound
  · -- The whole lead stands behind the text, or one at sign of it in the text.
    have hboth := hends.append hfree
    obtain ⟨blanks, words, hblanks, rfl, -⟩ := hlead
    rw [heq, Chain.Ends, List.append_assoc, List.append_assoc,
      Chain.trimStart_atElse ⟨blanks, hblanks⟩, Text.after?_append] at hboth
    cases hboth

/-! ## All the arms of a chain -/

/-- What continues a chain: its arms one behind the other, why it breaks off if a broken arm follows
them, and the text from there on. -/
structure Continued where
  arms : List Arm
  broken? : Option NoGroup
  rest : Text

/-- The arms that continue a chain at the front of a text. No arm follows an `@else`. -/
def readAll (text : Text) : Continued :=
  match h : read text with
  | none => ⟨[], none, text⟩
  | some (.error why) => ⟨[], some why, text⟩
  | some (.ok (arm, rest)) =>
    if arm.header?.isNone then ⟨[arm], none, rest⟩
    else
      have : rest.length < text.length := length_lt_of_read h
      { readAll rest with arms := arm :: (readAll rest).arms }
termination_by text.length

theorem readAll_of_none (h : read text = none) : readAll text = ⟨[], none, text⟩ := by
  rw [readAll]
  split <;> simp_all

theorem readAll_of_broken {why : NoGroup} (h : read text = some (.error why)) :
    readAll text = ⟨[], some why, text⟩ := by
  rw [readAll]
  split <;> simp_all

theorem readAll_of_ok (h : read text = some (.ok (arm, rest))) :
    readAll text = if arm.header?.isNone then ⟨[arm], none, rest⟩
      else { readAll rest with arms := arm :: (readAll rest).arms } := by
  rw [readAll]
  split <;> simp_all

/-- **The arms one after another.** What holds where no arm is read, and comes back over an arm, holds
of every text. -/
theorem reading {motive : Text → Prop}
    (ends : ∀ text, read text = none → motive text)
    (broken : ∀ text why, read text = some (.error why) → motive text)
    (arm : ∀ text arm rest, read text = some (.ok (arm, rest)) → motive rest → motive text)
    (text : Text) : motive text := by
  induction hn : text.length using Nat.strong_induction_on generalizing text with
  | _ n ih =>
  subst hn
  match h : read text with
  | none => exact ends text h
  | some (.error why) => exact broken text why h
  | some (.ok (found, rest)) => exact arm text found rest h (ih _ (length_lt_of_read h) rest rfl)

theorem readAll_suffix (text : Text) : (readAll text).rest <:+ text := by
  induction text using reading with
  | ends text h => rw [readAll_of_none h]
  | broken text why h => rw [readAll_of_broken h]
  | arm text arm rest h ih =>
    obtain ⟨lead, -, rfl⟩ := exists_lead_of_read_ok h
    have hrest : rest <:+ lead ++ (arm.source ++ rest) :=
      (List.suffix_append _ _).trans (List.suffix_append _ _)
    rw [readAll_of_ok h]
    split
    · exact hrest
    · exact ih.trans hrest

theorem length_content_lt (arm : Arm) : arm.content.length < arm.source.length := by
  have := (Text.trimStart_suffix arm.body.inside).length_le
  simp only [content, source, Group.source, List.length_append, List.length_cons]
  omega

theorem length_content_lt_of_mem (h : arm ∈ (readAll text).arms) :
    arm.content.length < text.length := by
  induction text using reading with
  | ends text hread => simp [readAll_of_none hread] at h
  | broken text why hread => simp [readAll_of_broken hread] at h
  | arm text found rest hread ih =>
    have hfound : found.content.length < text.length := by
      obtain ⟨lead, -, rfl⟩ := exists_lead_of_read_ok hread
      have := found.length_content_lt
      simp only [List.length_append]
      omega
    rw [readAll_of_ok hread] at h
    split at h
    · rw [List.mem_singleton.1 h]
      exact hfound
    · rcases List.mem_cons.1 h with rfl | h
      · exact hfound
      · exact Nat.lt_trans (ih h) (length_lt_of_read hread)

/-- More text behind a chain is left behind it, unless the search for a group ran off the end or the
text goes on with one arm more. -/
theorem readAll_append (more : Text) (hwhy : ∀ why ∈ (readAll text).broken?, ¬ why.RunsOff)
    (hends : read (readAll text).rest = none → read ((readAll text).rest ++ more) = none) :
    readAll (text ++ more) = { readAll text with rest := (readAll text).rest ++ more } := by
  induction text using reading with
  | ends text h =>
    rw [readAll_of_none h] at hends ⊢
    exact readAll_of_none (hends h)
  | broken text why h =>
    rw [readAll_of_broken h] at hwhy ⊢
    refine readAll_of_broken (read_append more h ?_)
    rintro _ ⟨⟩
    exact hwhy why rfl
  | arm text arm rest h ih =>
    have hmore := read_append more h fun _ heq => nomatch heq
    rw [readAll_of_ok h] at hwhy hends ⊢
    rw [readAll_of_ok hmore]
    split
    · rfl
    next helse =>
      rw [if_neg helse] at hwhy hends
      rw [ih hwhy hends]

end Arm

/-! ## The readers with offsets -/

namespace Chain

variable {text rest : Text}

theorem continuation_of_read_none (h : Arm.read text = none) : continuation text 0 = .ok none := by
  unfold Arm.read at h
  split at h
  · cases h
  next hif =>
    rw [Option.map_eq_none_iff] at h
    simp only [continuation, List.drop_zero, hif, h]

theorem asContinuation_of_reports {α : Type} {why : NoGroup} {fault : Fault} (index distance : Nat)
    (h : why.Reports fault) :
    asContinuation index (.error (fault.shift distance) : Except Fault α) =
      .error (.brokenContinuation index) := by
  cases why with
  | unclosed =>
    obtain ⟨position, rfl⟩ := h
    rfl
  | atEnd | otherwise =>
    obtain ⟨position, header, rfl⟩ := h
    rfl

/-- What the reading with offsets answers where an arm or a broken one is read. -/
def answer (text : Text) : Except NoGroup (Arm × Text) → Except Fault (Option (Branch × Nat))
  | .error _ => .error (.brokenContinuation 0)
  | .ok (arm, rest) => .ok (some (arm.branch, text.length - rest.length))

theorem continuation_of_elseIf {ahead : Text} (hahead : afterElseIf? text = some ahead) :
    continuation text 0 = answer text
      ((Groups.read ahead).map fun (groups, rest) => (Arm.ofGroups groups, rest)) := by
  obtain ⟨lead, rfl⟩ := afterElseIf?_suffix hahead
  have hmoved := Block.groups_append lead ahead 0
  rw [Nat.add_zero] at hmoved
  simp only [continuation, List.drop_zero, hahead, List.length_append, Nat.add_sub_cancel, hmoved]
  cases hread : Groups.read ahead with
  | error why =>
    obtain ⟨fault, hfault, hreports⟩ := Groups.groups_of_error hread
    rw [hfault]
    exact asContinuation_of_reports 0 _ hreports
  | ok found =>
    obtain ⟨groups, rest⟩ := found
    obtain ⟨header, body, hgroups, hheader, hbody, hstop⟩ := Groups.groups_of_read hread
    obtain ⟨-, hh, -, hb⟩ := Block.groups_ok hgroups
    have hbranch : Branch.ofParts (lead ++ ahead) (header.shift lead.length)
        (body.shift lead.length) = (Arm.ofGroups groups).branch := by
      rw [Branch.ofParts_append lead ahead hh.stop_pos hb.stop_pos, Branch.ofParts, hheader, hbody]
      rfl
    have hlen := congrArg List.length (Groups.read_eq_ok_iff.1 hread)
    rw [List.length_append] at hlen
    have hend : (body.shift lead.length).stop = lead.length + ahead.length - rest.length := by
      change lead.length + body.stop = _
      omega
    rw [hgroups]
    simp only [shiftReading, Except.map, asContinuation, hbranch, hend, answer, List.length_append]

theorem continuation_of_else {ahead : Text} (hahead : afterElse? text = some ahead) :
    continuation text 0 = answer text
      ((Group.read .brace ahead).map fun (body, rest) => (⟨none, body⟩, rest)) := by
  have hif := afterElseIf?_eq_none_of_else hahead
  obtain ⟨lead, rfl⟩ := afterElse?_suffix hahead
  have hmoved := expectGroup_append lead ahead 0 '{'
  rw [Nat.add_zero] at hmoved
  simp only [continuation, List.drop_zero, hif, hahead, List.length_append, Nat.add_sub_cancel, hmoved]
  cases hread : Group.read .brace ahead with
  | error why =>
    obtain ⟨fault, hfault, hreports⟩ := Group.expectGroup_of_error hread
    rw [show expectGroup ahead 0 '{' = .error fault from hfault]
    exact asContinuation_of_reports 0 _ hreports
  | ok found =>
    obtain ⟨body, rest⟩ := found
    let span : Span :=
      ⟨body.blanks.text.length, body.blanks.text.length + body.inside.length + 2⟩
    have hbody : expectGroup ahead 0 '{' = .ok span := Group.expectGroup_of_read hread
    have htext := Group.read_eq_ok_iff.1 hread
    have hinner : span.innerText ahead = body.inside := by
      rw [htext, Group.source_append]
      exact Span.innerText_group body.blanks.text body.inside rest '{' '}'
    have hbranch : Branch.ofElse (lead ++ ahead) (span.shift lead.length) =
        (Arm.mk none body).branch := by
      rw [Branch.ofElse_append lead ahead (Nat.succ_pos _), Branch.ofElse, hinner]
      rfl
    have hlen := congrArg List.length htext
    simp only [List.length_append, Group.source, List.length_cons, List.length_nil] at hlen
    have hend : (span.shift lead.length).stop = lead.length + ahead.length - rest.length := by
      change lead.length + (body.blanks.text.length + body.inside.length + 2) = _
      omega
    rw [hbody]
    simp only [shiftReading, Except.map, asContinuation, hbranch, hend, answer, List.length_append]

theorem continuation_of_read {outcome : Except NoGroup (Arm × Text)}
    (h : Arm.read text = some outcome) : continuation text 0 = answer text outcome := by
  rcases Arm.read_eq_some_iff.1 h with ⟨ahead, hahead, rfl⟩ | ⟨ahead, hahead, rfl⟩
  · exact continuation_of_elseIf hahead
  · exact continuation_of_else hahead

/-- A chain ends behind an `@else`, and where no arm follows. -/
theorem result_continueFrom_of_end (fuel : Nat) {last : Branch}
    (h : last.isElse = true ∨ continuation text 0 = .ok none ∨
      continuation text 0 = .error (.brokenContinuation 0)) :
    (continueFrom text fuel last 0).result = .ok ([], 0) := by
  cases fuel with
  | zero => rfl
  | succ fuel =>
    rw [result_continueFrom_succ]
    rcases h with h | h | h <;> simp [h]

/-- A chain is continued by the arms that are read behind it. -/
theorem result_continueFrom_readAll (text : Text) (fuel : Nat) {last : Branch}
    (hlast : last.isElse = false) (hfuel : text.length ≤ fuel) :
    (continueFrom text fuel last 0).result =
      .ok ((Arm.readAll text).arms.map Arm.branch, text.length - (Arm.readAll text).rest.length) := by
  induction text using Arm.reading generalizing fuel last with
  | ends text h =>
    rw [result_continueFrom_of_end fuel (.inr (.inl (continuation_of_read_none h))),
      Arm.readAll_of_none h]
    simp
  | broken text why h =>
    rw [result_continueFrom_of_end fuel (.inr (.inr (continuation_of_read h))),
      Arm.readAll_of_broken h]
    simp
  | arm text arm rest h ih =>
    have hlt := Arm.length_lt_of_read h
    obtain ⟨fuel, rfl⟩ : ∃ less, fuel = less + 1 := ⟨fuel - 1, by omega⟩
    obtain ⟨lead, -, htext⟩ := Arm.exists_lead_of_read_ok h
    rw [← List.append_assoc] at htext
    generalize lead ++ arm.source = front at htext
    have hfront : text.length - rest.length = front.length := by
      rw [htext, List.length_append, Nat.add_sub_cancel]
    have hmoved := continueFrom_append front rest fuel arm.branch 0
    rw [Nat.add_zero, ← htext] at hmoved
    rw [result_continueFrom_succ, hlast, continuation_of_read h]
    simp only [answer, Bool.false_eq_true, ↓reduceIte, hfront, hmoved]
    rw [Arm.readAll_of_ok h]
    by_cases helse : arm.header?.isNone
    · rw [result_continueFrom_of_end fuel (.inl (by rwa [Arm.isElse_branch])), if_pos helse]
      simp [Except.map, hfront]
    · have hrest : (continueFrom rest fuel arm.branch 0).result = _ :=
        ih fuel (by rw [Arm.isElse_branch]; exact Bool.eq_false_iff.2 helse) (by omega)
      have := (Arm.readAll_suffix rest).length_le
      rw [hrest, if_neg helse]
      simp [Except.map]
      omega

/-- The chain of a located block is its first arm and those that are read behind it. -/
theorem result_ofBlock_readAll {pre : Text} {block : Block} {groups : Groups}
    (hstop : block.stop = pre.length) (hheader : block.headerText (pre ++ rest) = groups.header.inside)
    (hbody : block.bodyText (pre ++ rest) = groups.body.inside) :
    (ofBlock (pre ++ rest) block).result =
      .ok ((Arm.ofGroups groups :: (Arm.readAll rest).arms).map Arm.branch,
        (pre ++ rest).length - (Arm.readAll rest).rest.length) := by
  have hfirst : Branch.ofParts (pre ++ rest) block.header block.body =
      (Arm.ofGroups groups).branch := by
    rw [Branch.ofParts, show block.header.innerText (pre ++ rest) = _ from hheader,
      show block.body.innerText (pre ++ rest) = _ from hbody]
    rfl
  have hmoved := continueFrom_append pre rest (pre ++ rest).length (Arm.ofGroups groups).branch 0
  have hlast : (Arm.ofGroups groups).branch.isElse = false := rfl
  have hrest := result_continueFrom_readAll rest (pre ++ rest).length hlast (by simp)
  have hle := (Arm.readAll_suffix rest).length_le
  have hend : pre.length + (rest.length - (Arm.readAll rest).rest.length) =
      (pre ++ rest).length - (Arm.readAll rest).rest.length := by
    rw [List.length_append]
    omega
  rw [Nat.add_zero] at hmoved
  rw [result_ofBlock, hfirst, hstop, hmoved, hrest]
  simp only [Except.map, hend, List.map_cons]

end Chain

end FlowTemplate
