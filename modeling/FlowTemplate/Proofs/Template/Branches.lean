/-
Reading the branches of a written chain. Each `@else if` and each `@else` with its body is found
where the branch before it ends, whatever the bodies hold as long as their braces are balanced, and
the chain ends where the text goes on with no further `@else`.
-/
import FlowTemplate.Proofs.Template.Reading

namespace FlowTemplate

open Fault Delimiter

namespace Template

/-! ## Balanced headers and bodies -/

theorem AliasClause.source_balanced (clause : AliasClause) (kind : Delimiter) :
    kind.Balanced clause.source := by
  have hsemicolon : kind.Balanced [';'] := by cases kind <;> decide
  have has : kind.Balanced "as".toList := by cases kind <;> decide
  exact (clause.beforeSemicolon.blank.balanced kind).append <| hsemicolon.append <|
    (clause.afterSemicolon.blank.balanced kind).append <| has.append <|
    (clause.afterAs.blank.balanced kind).append (clause.name.balanced kind)

theorem BranchHeader.core_balanced (header : BranchHeader) (kind : Delimiter) :
    kind.Balanced header.core := by
  have hcondition : kind.Balanced header.condition.text := by
    cases kind
    · exact header.condition.parens
    · exact header.condition.braces
  unfold core
  refine hcondition.append ?_
  cases header.alias? with
  | none => exact .nil
  | some clause => exact clause.source_balanced kind

/-- The loop clause and the track clause. -/
def LoopHeader.core (header : LoopHeader) : Text :=
  header.clause ++ (header.track?.map TrackClause.source).getD []

theorem Expression.balanced (expression : Expression) (kind : Delimiter) :
    kind.Balanced expression.text := by
  cases kind
  · exact expression.parens
  · exact expression.braces

theorem LoopHeader.trimmed_core (header : LoopHeader) : header.core.trim = header.core := by
  unfold core
  cases header.track? with
  | none => simpa using header.trimmed_clause
  | some track =>
    have hne : header.clause ≠ [] := by simp [clause, header.item.ne_nil]
    have := Text.trim_append_of_ends header.trimmed_clause track.key.trimmed hne track.key.ne_nil
      (track.beforeSemicolon.text ++
        ';' :: (track.afterSemicolon.text ++ ("track".toList ++ track.afterTrack.text)))
    simpa [TrackClause.source] using this

theorem LoopHeader.core_balanced (header : LoopHeader) (kind : Delimiter) :
    kind.Balanced header.core := by
  have hof : kind.Balanced "of".toList := by cases kind <;> decide
  have hclause : kind.Balanced header.clause :=
    (header.item.balanced kind).append <| (header.beforeOf.blank.balanced kind).append <|
      hof.append <| (header.afterOf.blank.balanced kind).append (header.iterable.balanced kind)
  unfold core
  refine hclause.append ?_
  cases header.track? with
  | none => exact .nil
  | some clause =>
    have hsemicolon : kind.Balanced [';'] := by cases kind <;> decide
    have htrack : kind.Balanced "track".toList := by cases kind <;> decide
    exact (clause.beforeSemicolon.blank.balanced kind).append <| hsemicolon.append <|
      (clause.afterSemicolon.blank.balanced kind).append <| htrack.append <|
      (clause.afterTrack.blank.balanced kind).append (clause.key.balanced kind)

theorem Layout.wrap_balanced (layout : Layout) {core : Text} (h : brace.Balanced core) :
    brace.Balanced (layout.wrap core) := by
  have hopen : brace.Balanced ['('] := by decide
  have hclose : brace.Balanced [')'] := by decide
  exact (layout.beforeHeader.blank.balanced _).append <| hopen.append <|
    ((layout.atStart.blank.balanced _).append (h.append (layout.atEnd.blank.balanced _))).append <|
    hclose.append (layout.beforeBody.blank.balanced _)

theorem inBraces_balanced {body : Text} (h : brace.Balanced body) : brace.Balanced (inBraces body) :=
  h.group

end Template

open Template

/-! ## One branch more -/

/-- The branch that a header begins, with its content. -/
def Template.BranchHeader.branch (header : BranchHeader) (content : Text) : Branch :=
  ⟨some header.condition.text, content, header.alias?.map fun clause => clause.name.text⟩

namespace Chain

/-- A text that does not go on with a branch. -/
def Ends (text : Text) : Prop := Text.after? "@else".toList text.trimStart = none

theorem continuation_of_ends {text : Text} (h : Ends text) : continuation text 0 = .ok none := by
  have hif : afterElseIf? text = none := by
    rw [afterElseIf?, show Text.after? "@else".toList text.trimStart = none from h]
    rfl
  have helse : afterElse? text = none := by
    rw [afterElse?, show Text.after? "@else".toList text.trimStart = none from h]
    rfl
  simp only [continuation, List.drop_zero, hif, helse]

theorem trimStart_atElse (blanks : Blanks) (rest : Text) :
    Text.trimStart (blanks.text ++ ("@else".toList ++ rest)) = "@else".toList ++ rest := by
  rw [blanks.blank.trimStart_append]
  exact Text.trimStart_of_head (by simp; decide)

theorem continuation_elseIf (beforeElse : Blanks) (beforeIf : Gap) (header : BranchHeader)
    {body : Text} (rest : Text) (hbody : brace.Balanced body) :
    continuation (beforeElse.text ++ ("@else".toList ++ (beforeIf.text ++ ("if".toList ++
        (header.source ++ (inBraces body ++ rest)))))) 0 =
      .ok (some (header.branch body.trimStart, (beforeElse.text ++ ("@else".toList ++
        (beforeIf.text ++ ("if".toList ++ (header.source ++ inBraces body))))).length)) := by
  -- The groups are sought behind the blanks in front of the header.
  let layout : Layout := { header.toLayout with beforeHeader := ⟨[], .nil⟩ }
  let front := beforeElse.text ++ ("@else".toList ++ (beforeIf.text ++ ("if".toList ++
    header.beforeHeader.text)))
  let ahead := layout.wrap header.core ++ (inBraces body ++ rest)
  have hsource : header.source = header.beforeHeader.text ++ layout.wrap header.core := by
    simp only [BranchHeader.source, BranchHeader.core, Layout.wrap, layout, List.nil_append]
  have htext : beforeElse.text ++ ("@else".toList ++ (beforeIf.text ++ ("if".toList ++
      (header.source ++ (inBraces body ++ rest))))) = front ++ ahead := by
    simp only [hsource, front, ahead, List.append_assoc]
  have hif : Text.trimStart ("if".toList ++ (header.beforeHeader.text ++ ahead)) =
      "if".toList ++ (header.beforeHeader.text ++ ahead) := Text.trimStart_of_head (by simp; decide)
  have hahead : Text.trimStart (header.beforeHeader.text ++ ahead) = ahead := by
    rw [header.beforeHeader.blank.trimStart_append]
    exact Text.trimStart_of_head (by simp [ahead, Layout.wrap, layout]; decide)
  have hread : afterElseIf? (front ++ ahead) = some ahead := by
    simp only [front, List.append_assoc, afterElseIf?, trimStart_atElse, Text.after?_append,
      Option.bind_some, Text.afterBlanks?_append beforeIf.blank beforeIf.ne_nil, hif, bind, hahead]
    rfl
  obtain ⟨first, second, hgroups, hheader, hcontent, hstop⟩ :=
    groups_wrap layout rest (header.core_balanced paren) hbody
  obtain ⟨-, hfirst, -, hsecond⟩ := Block.groups_ok hgroups
  have hmoved := Block.groups_append front ahead 0
  rw [Nat.add_zero, hgroups] at hmoved
  have hbranch : Branch.ofParts ahead first second = header.branch body.trimStart := by
    have hcondition := header.read
    simp only [Branch.ofParts, ahead, hheader, hcontent]
    rw [show layout.atStart = header.atStart from rfl, show layout.atEnd = header.atEnd from rfl,
      hcondition]
    rfl
  simp only [htext, continuation, List.drop_zero, hread]
  rw [List.length_append, Nat.add_sub_cancel, hmoved]
  simp only [shiftReading, Except.map,
    Branch.ofParts_append front ahead hfirst.stop_pos hsecond.stop_pos, hbranch, asContinuation]
  simp only [Span.shift, hstop, hsource, front, List.length_append]
  congr 3
  omega

theorem continuation_otherwise (beforeElse beforeBody : Blanks) {body : Text} (rest : Text)
    (hbody : brace.Balanced body) :
    continuation (beforeElse.text ++ ("@else".toList ++ (beforeBody.text ++ (inBraces body ++ rest)))) 0 =
      .ok (some (⟨none, body.trimStart, none⟩, (beforeElse.text ++ ("@else".toList ++
        (beforeBody.text ++ inBraces body))).length)) := by
  let front := beforeElse.text ++ ("@else".toList ++ beforeBody.text)
  let ahead := inBraces body ++ rest
  have htext : beforeElse.text ++ ("@else".toList ++ (beforeBody.text ++ (inBraces body ++ rest))) =
      front ++ ahead := by simp only [front, ahead, List.append_assoc]
  have hahead : Text.trimStart (beforeBody.text ++ ahead) = ahead := by
    rw [beforeBody.blank.trimStart_append]
    exact Text.trimStart_of_head (by simp [ahead, inBraces]; decide)
  -- A brace stands where the word `if` of a conditional branch would.
  have hno : afterElseIf? (front ++ ahead) = none := by
    simp only [front, List.append_assoc, afterElseIf?, trimStart_atElse, Text.after?_append,
      Option.bind_some, bind]
    cases hfound : Text.afterBlanks? (beforeBody.text ++ ahead) with
    | none => rfl
    | some found =>
      rw [Text.afterBlanks?_eq_trimStart hfound, hahead]
      rfl
  have hread : afterElse? (front ++ ahead) = some ahead := by
    simp only [front, List.append_assoc, afterElse?, trimStart_atElse, Text.after?_append, bind,
      Option.bind_some, hahead]
    rfl
  have hgroup : expectGroup ahead 0 '{' = .ok ⟨0, body.length + 2⟩ := by
    have := @expectGroup_group brace [] body rest .nil hbody
    simpa [ahead, inBraces, opener, closer] using this
  have hcontent : Branch.ofElse (front ++ ahead) (Span.shift front.length ⟨0, body.length + 2⟩) =
      ⟨none, body.trimStart, none⟩ := by
    rw [Branch.ofElse_append front ahead (Nat.succ_pos _), Branch.ofElse]
    have := Span.innerText_group [] body rest '{' '}'
    simp only [List.length_nil, Nat.zero_add, List.nil_append] at this
    simp only [ahead, inBraces, List.cons_append, List.append_assoc, List.nil_append, this]
  have hmoved := expectGroup_append front ahead 0 '{'
  rw [Nat.add_zero, hgroup] at hmoved
  simp only [htext, continuation, List.drop_zero, hno, hread]
  rw [List.length_append, Nat.add_sub_cancel, hmoved]
  simp only [shiftReading, Except.map, hcontent, asContinuation]
  simp only [Span.shift, front, inBraces, List.length_append, List.length_cons, List.length_nil]
  congr 3
  omega

end Chain

/-! ## Whole blocks -/

namespace Branches

/-- The branches as they are written, where `content` spells what is in them. -/
def spell (content : Template → Text) : Branches → Text
  | .done => []
  | .elseIf beforeElse beforeIf header body more =>
    beforeElse.text ++ ("@else".toList ++ (beforeIf.text ++ ("if".toList ++
      (header.source ++ (inBraces (content body) ++ more.spell content)))))
  | .otherwise beforeElse beforeBody body =>
    beforeElse.text ++ ("@else".toList ++ (beforeBody.text ++ inBraces (content body)))

/-- The branches as a list, where `content` gives what is in them. -/
def toList (content : Template → Text) : Branches → List Branch
  | .done => []
  | .elseIf _ _ header body more => header.branch (content body) :: more.toList content
  | .otherwise _ _ body => [⟨none, content body, none⟩]

/-- A chain is read to its end. -/
theorem read {content : Template → Text} (hcontent : ∀ body, brace.Balanced (content body))
    (more : Branches) {rest : Text} (hends : Chain.Ends rest) {last : Branch}
    (hlast : last.isElse = false) {fuel : Nat} (hfuel : (more.spell content).length ≤ fuel) :
    (Chain.continueFrom (more.spell content ++ rest) fuel last 0).result =
      .ok (more.toList fun body => (content body).trimStart, (more.spell content).length) := by
  match more with
  | done =>
    cases fuel with
    | zero => rfl
    | succ fuel =>
      rw [spell, List.nil_append, Chain.result_continueFrom_succ, hlast,
        Chain.continuation_of_ends hends]
      rfl
  | elseIf beforeElse beforeIf header body more =>
    let front := beforeElse.text ++ ("@else".toList ++ (beforeIf.text ++ ("if".toList ++
      (header.source ++ inBraces (content body)))))
    have hspell : (elseIf beforeElse beforeIf header body more).spell content =
        front ++ more.spell content := by simp only [spell, front, List.append_assoc]
    have hpos : 0 < front.length := List.length_pos_of_mem (a := '@') <|
      List.mem_append_right _ (List.mem_append_left _ (by decide))
    rw [hspell, List.length_append] at hfuel
    obtain ⟨fuel, rfl⟩ : ∃ less, fuel = less + 1 := ⟨fuel - 1, by omega⟩
    have hbranch := Chain.continuation_elseIf beforeElse beforeIf header
      (more.spell content ++ rest) (hcontent body)
    have hrest := Chain.continueFrom_append front (more.spell content ++ rest) fuel
      (header.branch (content body).trimStart) 0
    rw [Nat.add_zero, read hcontent more hends rfl (by omega), ← List.append_assoc, ← hspell] at hrest
    rw [Chain.result_continueFrom_succ, hlast]
    simp only [spell, List.append_assoc] at hrest ⊢
    simp only [hbranch]
    rw [if_neg Bool.false_ne_true, hrest]
    simp only [Except.map, toList, front, List.length_append]
    congr 2
    omega
  | otherwise beforeElse beforeBody body =>
    have hspell : (otherwise beforeElse beforeBody body).spell content =
        beforeElse.text ++ ("@else".toList ++ (beforeBody.text ++ inBraces (content body))) := rfl
    have hpos : 0 < ((otherwise beforeElse beforeBody body).spell content).length :=
      List.length_pos_of_mem (a := '@') <|
        List.mem_append_right _ (List.mem_append_left _ (by decide))
    obtain ⟨fuel, rfl⟩ : ∃ less, fuel = less + 1 := ⟨fuel - 1, by omega⟩
    have hbranch := Chain.continuation_otherwise beforeElse beforeBody rest (hcontent body)
    rw [Chain.result_continueFrom_succ, hlast, hspell]
    simp only [List.append_assoc]
    simp only [hbranch]
    -- Nothing continues a chain behind an `@else`.
    cases fuel with
    | zero => simp [Chain.continueFrom, Except.map, toList]
    | succ fuel => simp [Chain.result_continueFrom_succ, Branch.isElse, Except.map, toList]

end Branches

/-- A chain is found where it begins, and all its branches are read. -/
theorem Chain.ofBlock_spell {content : Template → Text}
    (hcontent : ∀ body, brace.Balanced (content body)) (header : BranchHeader) (body : Template)
    (more : Branches) {rest : Text} (hends : Ends rest) :
    ∃ block, locate ("@if".toList ++ (header.source ++ (inBraces (content body) ++
        (more.spell content ++ rest)))) "if".toList 0 = .ok (some block) ∧ block.start = 0 ∧
      (ofBlock ("@if".toList ++ (header.source ++ (inBraces (content body) ++
        (more.spell content ++ rest)))) block).result =
        .ok (header.branch (content body).trimStart :: more.toList fun body => (content body).trimStart,
          ("@if".toList ++ (header.source ++ (inBraces (content body) ++ more.spell content))).length) := by
  obtain ⟨block, hlocate, hstart, hstop, hheader, hbody⟩ := locate_block "if".toList header.toLayout
    (more.spell content ++ rest) (header.core_balanced paren) (hcontent body)
  refine ⟨block, hlocate, hstart, ?_⟩
  let front := "@if".toList ++ (header.source ++ inBraces (content body))
  have hfront : block.stop = front.length := hstop
  have htext : "@if".toList ++ (header.source ++ (inBraces (content body) ++
      (more.spell content ++ rest))) = front ++ (more.spell content ++ rest) := by
    simp only [front, List.append_assoc]
  have hfirst : Branch.ofParts (front ++ (more.spell content ++ rest)) block.header block.body =
      header.branch (content body).trimStart := by
    have hcondition : Condition.ofHeader (block.header.innerText
        (front ++ (more.spell content ++ rest))) =
        ⟨header.condition.text, header.alias?.map fun clause => clause.name.text⟩ := by
      rw [← htext]
      exact (congrArg Condition.ofHeader hheader).trans header.read
    have hinner : block.body.innerText (front ++ (more.spell content ++ rest)) = content body := by
      rw [← htext]
      exact hbody
    simp only [Branch.ofParts, hcondition, hinner]
    rfl
  have hlast : (header.branch (content body).trimStart).isElse = false := rfl
  have hfuel : (more.spell content).length ≤ (front ++ (more.spell content ++ rest)).length := by
    simp only [List.length_append]
    omega
  have hrest := Branches.read hcontent more hends hlast hfuel
  have hmoved := continueFrom_append front (more.spell content ++ rest)
    (front ++ (more.spell content ++ rest)).length (header.branch (content body).trimStart) 0
  rw [htext, result_ofBlock, hfirst, hfront, ← Nat.add_zero front.length, hmoved, hrest]
  simp only [Except.map, front, List.length_append]
  congr 2
  omega

/-- A loop is found where it begins, and is read as what its header says. -/
theorem Loop.ofBlock_source (header : LoopHeader) {body : Text} (hbody : brace.Balanced body)
    (rest : Text) :
    ∃ block, locate ("@for".toList ++ (header.source ++ (inBraces body ++ rest))) "for".toList 0 =
        .ok (some block) ∧ block.start = 0 ∧
      block.stop = ("@for".toList ++ (header.source ++ inBraces body)).length ∧
      (ofBlock ("@for".toList ++ (header.source ++ (inBraces body ++ rest))) block).result =
        .ok ⟨header.item.text, header.iterable.text, body,
          header.track?.map fun clause => clause.key.text⟩ := by
  obtain ⟨block, hlocate, hstart, hstop, hheader, hinner⟩ := locate_block "for".toList header.toLayout
    rest (header.core_balanced paren) hbody
  refine ⟨block, hlocate, hstart, hstop, ?_⟩
  have htrim : Text.trim (block.headerText
      ("@for".toList ++ (header.source ++ (inBraces body ++ rest)))) = header.core := by
    refine (congrArg Text.trim hheader).trans ?_
    exact Text.trim_pad header.atStart.blank header.atEnd.blank header.trimmed_core
  have hcontent : block.bodyText ("@for".toList ++ (header.source ++ (inBraces body ++ rest))) = body :=
    hinner
  obtain ⟨hclause, htrack⟩ := header.read
  rw [result_ofBlock, htrim, hcontent]
  simp only [LoopHeader.core, hclause, htrack, header.iterable.trimmed]

end FlowTemplate
