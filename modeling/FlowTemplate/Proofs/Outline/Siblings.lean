/-
Texts one after another. Where no search ran off the end of the first text and its last at sign has been
read, its outline stays as it is with more text behind, and the outline of the second text goes on from
it (`Outline.exists_append`). So the two are compiled independently of each other.
-/
import FlowTemplate.Proofs.Outline.Run

namespace FlowTemplate

open Fault

/-! ## Readings with more text behind -/

theorem Text.cutKeyword?_append {keyword text before after : Text} (hk : keyword.IsKeyword)
    (h : cutKeyword? keyword text = some (before, after)) (hne : after ≠ []) (more : Text) :
    cutKeyword? keyword (text ++ more) = some (before, after ++ more) := by
  obtain ⟨rfl, hends, hfree⟩ := (cutKeyword?_eq_some_iff hk).1 h
  exact (cutKeyword?_eq_some_iff hk).2
    ⟨by simp, by rwa [nameEnds_append_of_ne_nil hne], hfree⟩

theorem Groups.ne_nil_of_read {text rest : Text} {groups : Groups}
    (h : read text = .ok (groups, rest)) : text ≠ [] := by
  rintro rfl
  cases h

theorem Construct.read_append {construct : Construct} {groups : Groups} {back rest : Text}
    {piece : Piece construct} (h : construct.read groups back = some (piece, rest))
    (hinside : piece.StaysInside) (more : Text)
    (hends : construct = .chains → Arm.read rest = none → Arm.read (rest ++ more) = none) :
    construct.read groups (back ++ more) = some (piece, rest ++ more) := by
  cases construct with
  | loops =>
    obtain ⟨loop, hloop, rfl, rfl⟩ := readLoop_eq_some h
    exact readLoop_of_ofHeader? hloop _
  | chains =>
    cases h
    have hmore := Arm.readAll_append more hinside (hends rfl)
    change some (readChain groups (back ++ more)) = _
    rw [readChain, hmore]

theorem Construct.read_none_append {construct : Construct} {groups : Groups} {back : Text}
    (h : construct.read groups back = none) (more : Text) :
    construct.read groups (back ++ more) = none := by
  cases construct with
  | loops => exact readLoop_eq_none_iff.2 (readLoop_eq_none_iff.1 h)
  | chains => cases h

/-! ## Outlines one after another -/

namespace Outline

variable {construct : Construct} {a b : Text}

/-- Two outlines one after another: what the whole is compiled to, and how deep it is. -/
structure Joins (front : Outline construct a) (back : Outline construct b)
    (whole : Outline construct (a ++ b)) : Prop where
  markup : ∀ tag, whole.markup tag = front.markup tag ++ back.markup tag
  depth : ∀ limit, whole.depth < limit ↔ front.depth < limit ∧ back.depth < limit

section

variable (h : ∀ text, Text.Mentions (a ++ text) construct.keyword ↔ text.Mentions construct.keyword)
include h

theorem cut_prepend {before after : Text}
    (hcut : Text.cutKeyword? construct.keyword b = some (before, after)) :
    Text.cutKeyword? construct.keyword (a ++ b) = some (a ++ before, after) := by
  obtain ⟨rfl, hends, hfree⟩ := (Text.cutKeyword?_eq_some_iff construct.isKeyword).1 hcut
  refine (Text.cutKeyword?_eq_some_iff construct.isKeyword).2 ⟨by simp, hends, ?_⟩
  rwa [h]

/-- A text that adds no mention of the keyword belongs to what stands before the first one. -/
theorem exists_prepend (back : Outline construct b) :
    ∃ whole : Outline construct (a ++ b), (∀ tag, whole.markup tag = a ++ back.markup tag) ∧
      whole.depth = back.depth := by
  cases back with
  | plain cut =>
    rw [Text.cutKeyword?_eq_none_iff, ← h, ← Text.cutKeyword?_eq_none_iff] at cut
    exact ⟨.plain cut, fun _ => rfl, rfl⟩
  | stopped cut groups => exact ⟨.stopped (cut_prepend h cut) groups, fun _ => rfl, rfl⟩
  | skipped cut groups opens rest =>
    exact ⟨.skipped (cut_prepend h cut) groups opens rest, fun _ => List.append_assoc _ _ _, rfl⟩
  | rejected cut block piece rest =>
    exact ⟨.rejected (cut_prepend h cut) block piece rest, fun _ => List.append_assoc _ _ _, rfl⟩
  | compiled cut block read contents rest =>
    exact ⟨.compiled (cut_prepend h cut) block read contents rest,
      fun _ => List.append_assoc _ _ _, rfl⟩

end

/-- A text that has been read to its last at sign has a keyword in it or no at sign at all. -/
theorem mentions_or_free (outline : Outline construct a) (hinside : outline.StaysInside)
    (htail : '@' ∉ outline.tail) : a.Mentions construct.keyword ∨ '@' ∉ a := by
  have hmentions : ∀ {before after : Text},
      Text.cutKeyword? construct.keyword a = some (before, after) → a.Mentions construct.keyword := by
    intro before after hcut
    obtain ⟨htext, hends, -⟩ := (Text.cutKeyword?_eq_some_iff construct.isKeyword).1 hcut
    exact ⟨before, after, htext, hends⟩
  cases outline with
  | plain cut => exact .inr htail
  | stopped cut groups => exact hinside.elim
  | skipped cut groups opens rest => exact .inl (hmentions cut)
  | rejected cut block piece rest => exact .inl (hmentions cut)
  | compiled cut block read contents rest => exact .inl (hmentions cut)

/-- **Outlines one after another.** What was read of the first text is read again with the second
behind it, and then the second is read by itself. -/
theorem exists_append (front : Outline construct a) (hinside : front.StaysInside)
    (htail : '@' ∉ front.tail) (hends : construct = .chains → Chain.Ends b)
    (back : Outline construct b) : ∃ whole : Outline construct (a ++ b), front.Joins back whole := by
  induction front with
  | @plain text cut =>
    have hfree : '@' ∉ text := htail
    have hsilent : ∀ rest, Text.Mentions (text ++ rest) construct.keyword ↔
        rest.Mentions construct.keyword := fun _ => Text.mentions_silent_append_iff (.of_not_mem hfree)
    obtain ⟨whole, hmarkup, hdepth⟩ := exists_prepend hsilent back
    refine ⟨whole, hmarkup, fun limit => ?_⟩
    rw [hdepth, depth]
    omega
  | stopped cut groups => exact hinside.elim
  | @skipped text before after why cut groups opens rest ih =>
    obtain ⟨hwhy, hinside⟩ := hinside
    obtain ⟨whole, hmarkup, hdepth⟩ := ih hinside htail
    have hne : after ≠ [] := by
      rintro rfl
      cases groups
      exact hwhy (by simp [NoGroup.RunsOff])
    exact ⟨.skipped (Text.cutKeyword?_append construct.isKeyword cut hne b)
      (Groups.read_error_append groups hwhy b) opens whole,
      fun tag => by simp only [markup, hmarkup, List.append_assoc, List.cons_append], hdepth⟩
  | @rejected text before after rest' groups cut block piece rest ih =>
    obtain ⟨whole, hmarkup, hdepth⟩ := ih hinside htail
    exact ⟨.rejected (Text.cutKeyword?_append construct.isKeyword cut (Groups.ne_nil_of_read block) b)
      (Groups.read_ok_append block b) (Construct.read_none_append piece b) whole,
      fun tag => by simp only [markup, hmarkup, List.append_assoc, List.cons_append], hdepth⟩
  | @compiled text before after back' left groups piece cut block read contents rest ihContents ih =>
    obtain ⟨hpiece, hinside⟩ := hinside
    obtain ⟨whole, hmarkup, hdepth⟩ := ih hinside htail
    have hread := Construct.read_append read hpiece b fun hchains hnone => by
      subst hchains
      exact Arm.read_eq_none_append hnone ((rest.mentions_or_free hinside htail).imp id fun hfree =>
        ⟨hfree, hends rfl⟩)
    refine ⟨.compiled (Text.cutKeyword?_append construct.isKeyword cut (Groups.ne_nil_of_read block) b)
      (Groups.read_ok_append block b) hread contents whole,
      fun tag => by simp only [markup, hmarkup, List.append_assoc], fun limit => ?_⟩
    cases limit with
    | zero => simp
    | succ limit => rw [depth_compiled_lt_iff, depth_compiled_lt_iff, hdepth, and_assoc]

end Outline

/-! ## Passes over siblings -/

namespace Pass

/-- **Independent siblings compile independently.** Every text has an outline (`Outline.of`). If by that
of the first text no search for a group ran off its end and no at sign stands behind the last construct
that was read, and the second text does not go on with a branch of a chain, then a pass over both is the
pass over the first followed by the pass over the second. -/
theorem run_append_siblings {construct : Construct} {a b : Text} (outline : Outline construct a)
    (hinside : outline.StaysInside) (htail : '@' ∉ outline.tail)
    (hends : construct = .chains → Chain.Ends b) (tag : Text) (limit : Nat) :
    (run construct tag limit (a ++ b)).result = do
      let front ← (run construct tag limit a).result
      let back ← (run construct tag limit b).result
      return front ++ back := by
  let back := Outline.of construct b
  obtain ⟨whole, hmarkup, hdepth⟩ := outline.exists_append hinside htail hends back
  rw [whole.result_run, outline.result_run, back.result_run, hmarkup]
  simp only [hdepth, ite_and]
  split
  · split <;> rfl
  · rfl

/-- The groups of a block ` (x) {y}`. -/
def sampleGroups : Groups where
  header := ⟨Template.Gap.space.toBlanks, ['x'], by decide⟩
  body := ⟨Template.Gap.space.toBlanks, ['y'], by decide⟩

theorem read_sampleGroups :
    Construct.chains.read sampleGroups ['.'] = some (.chain [.ofGroups sampleGroups] none, ['.']) := by
  change some (Construct.readChain sampleGroups ['.']) = _
  rw [Construct.readChain, Arm.readAll_of_none rfl]

/-- The outline of a text in which a chain of one branch stands before a point. -/
def sampleOutline : Outline .chains "@if (x) {y}.".toList :=
  .compiled (Text.cutKeyword?_keyword rfl)
    (Groups.read_source sampleGroups ['.']) read_sampleGroups
    (fun content _ => .of .chains content) (.plain rfl)

theorem run_append_sampleOutline :
    sampleOutline.StaysInside ∧ '@' ∉ sampleOutline.tail ∧
      (Construct.chains = .chains → Chain.Ends " @if (u) {v}".toList) ∧
      (run .chains Container.defaultTag 9 ("@if (x) {y}.".toList ++ " @if (u) {v}".toList)).result = do
        let front ← (run .chains Container.defaultTag 9 "@if (x) {y}.".toList).result
        let back ← (run .chains Container.defaultTag 9 " @if (u) {v}".toList).result
        return front ++ back := by
  have hinside : sampleOutline.StaysInside := ⟨fun _ h => (Option.not_mem_none _ h).elim, trivial⟩
  have htail : '@' ∉ sampleOutline.tail := by
    change '@' ∉ ['.']
    decide
  have hends : Construct.chains = .chains → Chain.Ends " @if (u) {v}".toList := fun _ => rfl
  exact ⟨hinside, htail, hends,
    run_append_siblings sampleOutline hinside htail hends Container.defaultTag 9⟩

end Pass

end FlowTemplate
