/-
Texts cut at the leftmost occurrences of a construct. For a recogniser that takes up what it reads the
cut follows a recursion on the text: a character at which nothing is read joins the gap behind it, and
behind an occurrence the rest is cut by itself (`reading`). The stages rewrite their text segment by
segment, so the seam decides what they make of two texts one after another (`rewrite_append`).
-/
import FlowTemplate.Proofs.Text
import FlowTemplate.Text.Segment

namespace FlowTemplate

variable {α : Type}

namespace Recogniser

/-- What is left is a text behind the one that was read, which is not empty. -/
def Consumes (read : Recogniser α) : Prop :=
  ∀ text value rest, read text = some (value, rest) → ∃ w, w ≠ [] ∧ text = w ++ rest

/-- Only texts that begin with one character are read. -/
def BeginsWith (read : Recogniser α) (c : Char) : Prop :=
  ∀ text value rest, read text = some (value, rest) → text.head? = some c

theorem BeginsWith.none {read : Recogniser α} {c : Char} (h : read.BeginsWith c) {text : Text}
    (hc : text.head? ≠ some c) : read text = none := by
  rw [Option.eq_none_iff_forall_not_mem]
  rintro ⟨value, rest⟩ hread
  exact hc (h text value rest hread)

/-- What is read at the front of a text is an occurrence, whatever stands behind it. -/
def Reads (read : Recogniser α) (Occurs : α → Text → Prop) : Prop :=
  ∀ text value rest, read text = some (value, rest) ↔ ∃ w, Occurs value w ∧ text = w ++ rest

theorem Reads.consumes {read : Recogniser α} {Occurs : α → Text → Prop} (h : read.Reads Occurs)
    (hne : ∀ value w, Occurs value w → w ≠ []) : read.Consumes := by
  intro text value rest hread
  obtain ⟨w, hw, rfl⟩ := (h text value rest).1 hread
  exact ⟨w, hne value w hw, rfl⟩

end Recogniser

namespace Segment

variable {read : Recogniser α}

/-! ## The recursion -/

theorem ofTextFrom_eq (skip : Nat) (text : Text) :
    ofTextFrom read skip text = ofText read (text.drop skip) := by
  induction skip generalizing text with
  | zero => rfl
  | succ skip ih =>
    cases text with
    | nil => rfl
    | cons c cs => exact ih cs

@[simp] theorem ofText_nil : ofText read [] = [] := rfl

theorem ofText_cons {c : Char} {cs : Text} (h : read (c :: cs) = none) :
    ofText read (c :: cs) = consGap c (ofText read cs) := by
  rw [ofText, ofTextFrom, h]
  rfl

theorem ofText_hit {value : α} {w rest : Text} (hw : w ≠ [])
    (h : read (w ++ rest) = some (value, rest)) :
    ofText read (w ++ rest) = hit value w :: ofText read rest := by
  obtain ⟨c, cs, rfl⟩ := List.exists_cons_of_ne_nil hw
  have hmore : (cs ++ rest).length - rest.length = cs.length := by
    rw [List.length_append, Nat.add_sub_cancel]
  have hle : rest.length ≤ (cs ++ rest).length := by
    rw [List.length_append]
    exact Nat.le_add_left _ _
  rw [List.cons_append] at h ⊢
  rw [ofText, ofTextFrom, h]
  simp only [if_pos hle, hmore, ofTextFrom_eq, List.take_left, List.drop_left]

/-- **The recursion of a cut.** What holds of the empty text, comes back one character further at
which nothing is read, and comes back over an occurrence, holds of every text. -/
theorem reading {motive : Text → Prop} (hread : read.Consumes) (nil : motive [])
    (gap : ∀ c cs, read (c :: cs) = none → motive cs → motive (c :: cs))
    (hit : ∀ value w rest, w ≠ [] → read (w ++ rest) = some (value, rest) → motive rest →
      motive (w ++ rest)) (text : Text) : motive text := by
  induction hn : text.length using Nat.strong_induction_on generalizing text with
  | _ n ih =>
  subst hn
  cases text with
  | nil => exact nil
  | cons c cs =>
    cases hr : read (c :: cs) with
    | none => exact gap c cs hr (ih cs.length (Nat.lt_succ_self _) cs rfl)
    | some result =>
      obtain ⟨value, rest⟩ := result
      obtain ⟨w, hw, htext⟩ := hread _ _ _ hr
      have hlt : rest.length < (c :: cs).length := by
        rw [htext, List.length_append]
        exact Nat.lt_add_of_pos_left (List.length_pos_iff.2 hw)
      rw [htext] at hr ⊢
      exact hit value w rest hw hr (ih _ hlt rest rfl)

/-- A text without the character that occurrences begin with is at the front of a gap. -/
theorem ofText_append_of_not_mem {c : Char} (hread : read.BeginsWith c) {front : Text} (h : c ∉ front)
    (hne : front ≠ []) (rest : Text) :
    ∃ more segments, ofText read (front ++ rest) = gap (front ++ more) :: segments := by
  induction front with
  | nil => exact absurd rfl hne
  | cons d front ih =>
    simp only [List.mem_cons, not_or] at h
    have hnone : read (d :: (front ++ rest)) = none :=
      hread.none fun hd => h.1 (Option.some.inj hd).symm
    rw [List.cons_append, ofText_cons hnone]
    rcases List.eq_nil_or_concat front with rfl | ⟨start, last, rfl⟩
    · rw [List.nil_append]
      match ofText read rest with
      | [] => exact ⟨[], [], rfl⟩
      | gap text :: segments => exact ⟨text, segments, rfl⟩
      | hit value w :: segments => exact ⟨[], hit value w :: segments, rfl⟩
    · obtain ⟨more, segments, heq⟩ := ih h.2 (by simp)
      exact ⟨more, segments, by rw [heq]; rfl⟩

theorem hit_mem_consGap {c : Char} {value : α} {w : Text} {segments : List (Segment α)} :
    hit value w ∈ consGap c segments ↔ hit value w ∈ segments := by
  cases segments with
  | nil => simp [consGap]
  | cons segment rest => cases segment <;> simp [consGap]

theorem of_hit_mem (hread : read.Consumes) {text : Text} {value : α} {w : Text}
    (h : hit value w ∈ ofText read text) :
    ∃ front rest, text = front ++ (w ++ rest) ∧ read (w ++ rest) = some (value, rest) := by
  induction text using reading hread with
  | nil => cases h
  | gap c cs hnone ih =>
    rw [ofText_cons hnone, hit_mem_consGap] at h
    obtain ⟨front, rest, rfl, hsome⟩ := ih h
    exact ⟨c :: front, rest, rfl, hsome⟩
  | hit found v rest hv hsome ih =>
    rw [ofText_hit hv hsome] at h
    rcases List.mem_cons.1 h with heq | h
    · cases heq
      exact ⟨[], rest, rfl, hsome⟩
    · obtain ⟨front, back, rfl, hback⟩ := ih h
      exact ⟨v ++ front, back, by rw [List.append_assoc], hback⟩

theorem not_mem_of_mem {text : Text} {c : Char} (h : c ∉ text) {segment : Segment α}
    (hs : segment ∈ ofText read text) : c ∉ segment.text := fun hm => by
  rw [← flatMap_text_ofText read text] at h
  exact h (List.mem_flatMap.2 ⟨segment, hs, hm⟩)

theorem text_within {whole : Text} {segment : Segment α} (h : segment ∈ ofText read whole) :
    segment.text <:+: whole := by
  have hwithin : segment.text <:+: (ofText read whole).flatMap text :=
    List.infix_of_mem_flatten (List.mem_map_of_mem h)
  rwa [flatMap_text_ofText] at hwithin

/-! ## The parts of a cut -/

/-- Whether a segment is text between occurrences. -/
def isGap : Segment α → Bool
  | gap _ => true
  | hit _ _ => false

/-- No gap stands behind another one. -/
def Alternates (segments : List (Segment α)) : Prop :=
  segments.IsChain fun front back => front.isGap = true → back.isGap = false

theorem Alternates.consGap {segments : List (Segment α)} (h : Alternates segments) (c : Char) :
    Alternates (consGap c segments) := by
  cases segments with
  | nil => exact List.IsChain.singleton _
  | cons segment rest =>
    cases segment with
    | hit value w => exact List.isChain_cons_cons.2 ⟨fun _ => rfl, h⟩
    | gap g =>
      cases rest with
      | nil => exact List.IsChain.singleton _
      | cons next rest =>
        obtain ⟨hnext, hrest⟩ := List.isChain_cons_cons.1 h
        exact List.isChain_cons_cons.2 ⟨hnext, hrest⟩

theorem alternates_ofText (hread : read.Consumes) (text : Text) : Alternates (ofText read text) := by
  induction text using reading hread with
  | nil => exact List.IsChain.nil
  | gap c cs hnone ih =>
    rw [ofText_cons hnone]
    exact ih.consGap c
  | hit value w rest hw hsome ih =>
    rw [ofText_hit hw hsome]
    cases hrest : ofText read rest with
    | nil => exact List.IsChain.singleton _
    | cons next more => exact List.isChain_cons_cons.2 ⟨fun h => Bool.noConfusion h, hrest ▸ ih⟩

theorem forall_mem_consGap {p : Segment α → Prop} {c : Char} {segments : List (Segment α)}
    (hgap : ∀ g, p (gap (c :: g))) (h : ∀ segment ∈ segments, p segment) :
    ∀ segment ∈ consGap c segments, p segment := by
  match segments with
  | [] => exact List.forall_mem_cons.2 ⟨hgap [], h⟩
  | gap g :: rest => exact List.forall_mem_cons.2 ⟨hgap g, (List.forall_mem_cons.1 h).2⟩
  | hit value w :: rest => exact List.forall_mem_cons.2 ⟨hgap [], h⟩

theorem text_ne_nil (hread : read.Consumes) (text : Text) :
    ∀ segment ∈ ofText read text, segment.text ≠ [] := by
  induction text using reading hread with
  | nil => exact fun _ h => nomatch h
  | gap c cs hnone ih =>
    rw [ofText_cons hnone]
    exact forall_mem_consGap (fun g => List.cons_ne_nil c g) ih
  | hit value w rest hw hsome ih =>
    rw [ofText_hit hw hsome]
    exact List.forall_mem_cons.2 ⟨hw, ih⟩

/-! ## The leftmost occurrences -/

/-- The hits of segments are occurrences, and none begins in a gap, even if it were to end behind that. -/
def Leftmost (Occurs : α → Text → Prop) : List (Segment α) → Prop
  | [] => True
  | hit value w :: rest => Occurs value w ∧ Leftmost Occurs rest
  | gap g :: rest =>
    (∀ t, t ≠ [] → t <:+ g → ∀ value w, Occurs value w → ¬ w <+: t ++ rest.flatMap text) ∧
      Leftmost Occurs rest

variable {Occurs : α → Text → Prop}

theorem Leftmost.consGap {segments : List (Segment α)} (h : Leftmost Occurs segments) {c : Char}
    (hc : ∀ value w, Occurs value w → ¬ w <+: c :: segments.flatMap text) :
    Leftmost Occurs (consGap c segments) := by
  have hfirst : ∀ t g : Text, t ≠ [] → t <:+ c :: g → t = c :: g ∨ t <:+ g := fun t g _ hs =>
    List.suffix_cons_iff.1 hs
  match segments with
  | [] =>
    refine ⟨fun t ht hs => ?_, trivial⟩
    obtain rfl := (hfirst t [] ht hs).resolve_right fun hnil => ht (List.suffix_nil.1 hnil)
    exact hc
  | hit value w :: rest =>
    refine ⟨fun t ht hs => ?_, h⟩
    obtain rfl := (hfirst t [] ht hs).resolve_right fun hnil => ht (List.suffix_nil.1 hnil)
    exact hc
  | gap g :: rest =>
    refine ⟨fun t ht hs => ?_, h.2⟩
    rcases hfirst t g ht hs with rfl | hs
    · exact hc
    · exact h.1 t ht hs

theorem leftmost_ofText (hread : read.Reads Occurs) (hconsumes : read.Consumes) (whole : Text) :
    Leftmost Occurs (ofText read whole) := by
  induction whole using reading hconsumes with
  | nil => trivial
  | gap c cs hnone ih =>
    rw [ofText_cons hnone]
    refine ih.consGap fun value w hw => ?_
    rw [flatMap_text_ofText]
    rintro ⟨rest, hrest⟩
    have hsome := (hread (c :: cs) value rest).2 ⟨w, hw, hrest.symm⟩
    rw [hnone] at hsome
    cases hsome
  | hit value w rest hw hsome ih =>
    rw [ofText_hit hw hsome]
    obtain ⟨v, hv, heq⟩ := (hread _ _ _).1 hsome
    obtain rfl := List.append_cancel_right heq
    exact ⟨hv, ih⟩

/-- In front of an occurrence or the end, text in which nothing is read is a gap. -/
theorem ofText_gap {g rest : Text} (hne : g ≠ []) (h : ∀ t, t ≠ [] → t <:+ g → read (t ++ rest) = none)
    (hrest : ∀ segment ∈ (ofText read rest).head?, segment.isGap = false) :
    ofText read (g ++ rest) = gap g :: ofText read rest := by
  induction g with
  | nil => exact absurd rfl hne
  | cons c g ih =>
    have hnone : read (c :: (g ++ rest)) = none := h (c :: g) (List.cons_ne_nil _ _) List.suffix_rfl
    rw [List.cons_append, ofText_cons hnone]
    cases g with
    | nil =>
      rw [List.nil_append]
      match hsegments : ofText read rest with
      | [] => rfl
      | hit value w :: more => rfl
      | gap text :: more =>
        rw [hsegments] at hrest
        cases hrest _ rfl
    | cons d g =>
      rw [ih (List.cons_ne_nil _ _) fun t ht hs => h t ht (hs.trans (List.suffix_cons c _))]
      rfl

/-- Segments that are together the text, none of them empty and no gap behind another, whose hits are the
leftmost occurrences. -/
structure IsCut (Occurs : α → Text → Prop) (whole : Text) (segments : List (Segment α)) : Prop where
  text_eq : segments.flatMap text = whole
  ne_nil : ∀ segment ∈ segments, segment.text ≠ []
  alternates : Alternates segments
  leftmost : Leftmost Occurs segments

theorem isCut_ofText (hread : read.Reads Occurs) (hoccurs : ∀ value w, Occurs value w → w ≠ [])
    (whole : Text) : IsCut Occurs whole (ofText read whole) :=
  have hconsumes := hread.consumes hoccurs
  ⟨flatMap_text_ofText read whole, text_ne_nil hconsumes whole, alternates_ofText hconsumes whole,
    leftmost_ofText hread hconsumes whole⟩

/-- **A text has one cut.** -/
theorem ofText_eq_iff (hread : read.Reads Occurs) (hoccurs : ∀ value w, Occurs value w → w ≠ [])
    {whole : Text} {segments : List (Segment α)} :
    ofText read whole = segments ↔ IsCut Occurs whole segments := by
  constructor
  · rintro rfl
    exact isCut_ofText hread hoccurs whole
  · rintro ⟨rfl, hne, halternates, hleftmost⟩
    induction segments with
    | nil => rfl
    | cons segment rest ih =>
      obtain ⟨hfirst, hnerest⟩ := List.forall_mem_cons.1 hne
      have hrest := ih hnerest halternates.of_cons
      cases segment with
      | hit value w =>
        have hsome := (hread (w ++ rest.flatMap text) value _).2 ⟨w, hleftmost.1, rfl⟩
        have hw : w ≠ [] := hfirst
        rw [List.flatMap_cons, text, ofText_hit hw hsome, hrest hleftmost.2]
      | gap g =>
        have hg : g ≠ [] := hfirst
        rw [List.flatMap_cons, text, ofText_gap hg, hrest hleftmost.2]
        · intro t ht hs
          rw [Option.eq_none_iff_forall_not_mem]
          rintro ⟨value, left⟩ hsome
          obtain ⟨w, hw, heq⟩ := (hread _ _ _).1 hsome
          exact hleftmost.1 t ht hs value w hw ⟨left, heq.symm⟩
        · rw [hrest hleftmost.2]
          intro segment hsegment
          cases rest with
          | nil => cases hsegment
          | cons next more =>
            obtain rfl := Option.some.inj hsegment
            exact (List.isChain_cons_cons.1 halternates).1 rfl

/-! ## Texts one after another -/

/-- The segments of two texts one after another, where nothing is read across the seam: a gap at the end
of the first text goes on into the second. -/
def join : List (Segment α) → List (Segment α) → List (Segment α)
  | [], back => back
  | [gap text], gap more :: back => gap (text ++ more) :: back
  | segment :: front, back => segment :: join front back

theorem join_cons {segment : Segment α} {front back : List (Segment α)}
    (h : ∀ text more rest, back = gap more :: rest → segment = gap text → front = [] → False) :
    join (segment :: front) back = segment :: join front back := join.eq_3 back segment front h

theorem join_hit (value : α) (w : Text) (front back : List (Segment α)) :
    join (hit value w :: front) back = hit value w :: join front back :=
  join_cons fun _ _ _ _ h => nomatch h

theorem join_cons_cons (segment next : Segment α) (front back : List (Segment α)) :
    join (segment :: next :: front) back = segment :: join (next :: front) back :=
  join_cons fun _ _ _ _ _ h => nomatch h

theorem isEmpty_join (front back : List (Segment α)) :
    (join front back).isEmpty = (front.isEmpty && back.isEmpty) := by
  induction front, back using join.induct with
  | case1 back => rfl
  | case2 text more back => rfl
  | case3 segment front back hnot ih => rw [join_cons hnot]; rfl

theorem all_isGap_join (front back : List (Segment α)) :
    (join front back).all isGap = (front.all isGap && back.all isGap) := by
  induction front, back using join.induct with
  | case1 back => rfl
  | case2 text more back => rfl
  | case3 segment front back hnot ih =>
    rw [join_cons hnot, List.all_cons, List.all_cons, ih, Bool.and_assoc]

theorem join_consGap (c : Char) (front back : List (Segment α)) :
    join (consGap c front) back = consGap c (join front back) := by
  match front with
  | [] =>
    match back with
    | [] => rfl
    | gap _ :: _ => rfl
    | hit _ _ :: _ => rfl
  | hit value w :: front =>
    rw [join_hit]
    exact (join_cons_cons _ _ _ _).trans (by rw [join_hit]; rfl)
  | [gap g] =>
    match back with
    | [] => rfl
    | gap _ :: _ => rfl
    | hit _ _ :: _ => rfl
  | gap g :: next :: front =>
    rw [join_cons_cons]
    exact join_cons_cons _ _ _ _

/-- Nothing is read across the seam of two texts. -/
def Seam (read : Recogniser α) (front rest : Text) : Prop :=
  ∀ t, t ≠ [] → t <:+ front → read (t ++ rest) = (read t).map fun (value, left) => (value, left ++ rest)

theorem ofText_append (hread : read.Consumes) {front rest : Text} (h : Seam read front rest) :
    ofText read (front ++ rest) = join (ofText read front) (ofText read rest) := by
  induction front using reading hread with
  | nil => rfl
  | gap c cs hnone ih =>
    have hseam := h (c :: cs) (List.cons_ne_nil _ _) List.suffix_rfl
    rw [hnone, List.cons_append] at hseam
    rw [List.cons_append, ofText_cons hseam, ofText_cons hnone, join_consGap]
    rw [ih fun t ht hs => h t ht (hs.trans (List.suffix_cons c cs))]
  | hit value w left hw hsome ih =>
    have hseam := h (w ++ left) (List.append_ne_nil_of_left_ne_nil hw _) List.suffix_rfl
    rw [hsome, Option.map_some, List.append_assoc] at hseam
    rw [List.append_assoc, ofText_hit hw hseam, ofText_hit hw hsome, join_hit]
    rw [ih fun t ht hs => h t ht (hs.trans (List.suffix_append w left))]

theorem ofText_of_not_mem {c : Char} (hread : read.BeginsWith c) {text : Text} (h : c ∉ text)
    (hne : text ≠ []) : ofText read text = [gap text] := by
  induction text with
  | nil => exact absurd rfl hne
  | cons d text ih =>
    simp only [List.mem_cons, not_or] at h
    rw [ofText_cons (hread.none fun hd => h.1 (Option.some.inj hd).symm)]
    cases text with
    | nil => rfl
    | cons e text => rw [ih h.2 (List.cons_ne_nil _ _), Segment.consGap]

theorem Seam.of_not_mem {c : Char} (hread : read.BeginsWith c) {front : Text} (h : c ∉ front)
    (rest : Text) : Seam read front rest := by
  intro t ht hs
  obtain ⟨d, t, rfl⟩ := List.exists_cons_of_ne_nil ht
  have hd : d ≠ c := fun heq => h (heq ▸ hs.subset List.mem_cons_self)
  have hnone : ∀ more, read (d :: more) = none := fun more =>
    hread.none fun heq => hd (Option.some.inj heq)
  rw [List.cons_append, hnone, hnone]
  rfl

/-! ## Rewriting -/

/-- What stands in the place of a segment: a gap stays, and `onHit` says what becomes of an occurrence
and its text. -/
def replacement (onHit : α → Text → Text) : Segment α → Text
  | gap text => text
  | hit value text => onHit value text

/-- A text rewritten segment by segment. -/
def rewrite (read : Recogniser α) (onHit : α → Text → Text) (text : Text) : Text :=
  (ofText read text).flatMap (replacement onHit)

variable {onHit : α → Text → Text}

theorem replace_eq_rewrite (markup : α → Text) (text : Text) :
    Text.replace read markup text = rewrite read (fun value _ => markup value) text := by
  rw [Text.replace, rewrite]
  congr 1

@[simp] theorem rewrite_nil : rewrite read onHit [] = [] := rfl

theorem rewrite_cons {c : Char} {cs : Text} (h : read (c :: cs) = none) :
    rewrite read onHit (c :: cs) = c :: rewrite read onHit cs := by
  rw [rewrite, ofText_cons h, rewrite]
  cases ofText read cs with
  | nil => rfl
  | cons segment rest => cases segment <;> rfl

theorem rewrite_hit {value : α} {w rest : Text} (hw : w ≠ [])
    (h : read (w ++ rest) = some (value, rest)) :
    rewrite read onHit (w ++ rest) = onHit value w ++ rewrite read onHit rest := by
  rw [rewrite, ofText_hit hw h]
  rfl

/-- What is read at the front is replaced, and then what stands behind it. -/
theorem replace_of_read (hread : read.Consumes) {markup : α → Text} {text rest : Text} {value : α}
    (h : read text = some (value, rest)) :
    Text.replace read markup text = markup value ++ Text.replace read markup rest := by
  obtain ⟨w, hw, rfl⟩ := hread text value rest h
  rw [replace_eq_rewrite, rewrite_hit hw h, ← replace_eq_rewrite]

/-- Two texts one after another are rewritten each by itself, if nothing is read across the seam. -/
theorem rewrite_append (hread : read.Consumes) {front rest : Text} (h : Seam read front rest) :
    rewrite read onHit (front ++ rest) = rewrite read onHit front ++ rewrite read onHit rest := by
  induction front using reading hread with
  | nil => rfl
  | gap c cs hnone ih =>
    have hseam := h (c :: cs) (List.cons_ne_nil _ _) List.suffix_rfl
    rw [hnone, List.cons_append] at hseam
    rw [List.cons_append, rewrite_cons hseam, rewrite_cons hnone, List.cons_append]
    rw [ih fun t ht hs => h t ht (hs.trans (List.suffix_cons c cs))]
  | hit value w left hw hsome ih =>
    have hseam := h (w ++ left) (List.append_ne_nil_of_left_ne_nil hw _) List.suffix_rfl
    rw [hsome, Option.map_some, List.append_assoc] at hseam
    rw [List.append_assoc, rewrite_hit hw hseam, rewrite_hit hw hsome, List.append_assoc]
    rw [ih fun t ht hs => h t ht (hs.trans (List.suffix_append w left))]

/-- A text without the character that occurrences begin with stays. -/
theorem rewrite_append_of_not_mem {c : Char} (hread : read.BeginsWith c) {front : Text}
    (h : c ∉ front) (rest : Text) :
    rewrite read onHit (front ++ rest) = front ++ rewrite read onHit rest := by
  induction front with
  | nil => rfl
  | cons d front ih =>
    simp only [List.mem_cons, not_or] at h
    have hnone : read (d :: (front ++ rest)) = none :=
      hread.none fun hd => h.1 (Option.some.inj hd).symm
    rw [List.cons_append, rewrite_cons hnone, ih h.2, List.cons_append]

theorem rewrite_of_not_mem {c : Char} (hread : read.BeginsWith c) {text : Text} (h : c ∉ text) :
    rewrite read onHit text = text := by
  have : rewrite read onHit (text ++ []) = text ++ rewrite read onHit [] :=
    rewrite_append_of_not_mem hread h []
  rwa [List.append_nil, rewrite_nil, List.append_nil] at this

theorem rewrite_of_none {text : Text} (h : ∀ t, t <:+ text → read t = none) :
    rewrite read onHit text = text := by
  induction text with
  | nil => rfl
  | cons c cs ih =>
    rw [rewrite_cons (h _ List.suffix_rfl), ih fun t ht => h t (ht.trans (List.suffix_cons c cs))]

/-- A character comes into a text only with what stands in the place of an occurrence. -/
theorem not_mem_rewrite (hread : read.Consumes) {c : Char}
    (hhit : ∀ value w rest, read (w ++ rest) = some (value, rest) → c ∉ w → c ∉ onHit value w)
    {text : Text} (h : c ∉ text) : c ∉ rewrite read onHit text := by
  induction text using reading hread with
  | nil => exact h
  | gap d cs hnone ih =>
    rw [rewrite_cons hnone]
    simp only [List.mem_cons, not_or] at h ⊢
    exact ⟨h.1, ih h.2⟩
  | hit value w rest hw hsome ih =>
    rw [rewrite_hit hw hsome]
    have hparts : c ∉ w ∧ c ∉ rest := by simpa only [List.mem_append, not_or] using h
    exact List.not_mem_append (hhit value w rest hsome hparts.1) (ih hparts.2)

/-- A character stays as often as a text has it, if every occurrence keeps its number. -/
theorem count_rewrite (hread : read.Consumes) {c : Char}
    (hhit : ∀ value w rest, read (w ++ rest) = some (value, rest) → (onHit value w).count c = w.count c)
    (text : Text) : (rewrite read onHit text).count c = text.count c := by
  induction text using reading hread with
  | nil => rfl
  | gap d cs hnone ih => rw [rewrite_cons hnone, List.count_cons, List.count_cons, ih]
  | hit value w rest hw hsome ih =>
    rw [rewrite_hit hw hsome, List.count_append, List.count_append, hhit value w rest hsome, ih]

/-- The last character of a text stays, if no occurrence ends with it. -/
theorem getLast?_rewrite (hread : read.Consumes) {c : Char}
    (hhit : ∀ value w rest, read (w ++ rest) = some (value, rest) → w.getLast? ≠ some c)
    {text : Text} (h : text.getLast? = some c) : (rewrite read onHit text).getLast? = some c := by
  induction text using reading hread with
  | nil => exact h
  | gap d cs hnone ih =>
    rw [rewrite_cons hnone]
    cases cs with
    | nil => exact h
    | cons e cs =>
      rw [List.getLast?_cons_cons] at h
      rw [List.getLast?_cons, ih h]
      rfl
  | hit value w rest hw hsome ih =>
    rw [rewrite_hit hw hsome]
    rw [List.getLast?_append] at h ⊢
    cases hrest : rest.getLast? with
    | none =>
      rw [hrest, Option.none_or] at h
      exact absurd h (hhit value w rest hsome)
    | some d =>
      rw [hrest, Option.some_or] at h
      rw [ih (hrest.trans h), Option.some_or]

theorem rewrite_ne_nil (hread : read.Consumes)
    (hhit : ∀ value w rest, read (w ++ rest) = some (value, rest) → onHit value w ≠ [])
    {text : Text} (h : text ≠ []) : rewrite read onHit text ≠ [] := by
  cases text using reading hread with
  | nil => exact absurd rfl h
  | gap d cs hnone =>
    rw [rewrite_cons hnone]
    exact List.cons_ne_nil _ _
  | hit value w rest hw hsome =>
    rw [rewrite_hit hw hsome]
    exact List.append_ne_nil_of_left_ne_nil (hhit value w rest hsome) _

/-- A text does not end with a character that it did not end with, if no replacement does. -/
theorem getLast?_rewrite_ne (hread : read.Consumes) {c : Char}
    (hhit : ∀ value w rest, read (w ++ rest) = some (value, rest) →
      ∃ d, (onHit value w).getLast? = some d ∧ d ≠ c)
    {text : Text} (h : text.getLast? ≠ some c) : (rewrite read onHit text).getLast? ≠ some c := by
  have hends : ∀ text, text ≠ [] → rewrite read onHit text ≠ [] := fun _ =>
    rewrite_ne_nil hread fun value w rest hsome hnil => by
      obtain ⟨d, hd, -⟩ := hhit value w rest hsome
      rw [hnil] at hd
      cases hd
  induction text using reading hread with
  | nil => exact h
  | gap d cs hnone ih =>
    rw [rewrite_cons hnone]
    cases cs with
    | nil => exact h
    | cons e cs =>
      rw [List.getLast?_cons_cons] at h
      obtain ⟨f, more, hmore⟩ := List.exists_cons_of_ne_nil (hends (e :: cs) (List.cons_ne_nil _ _))
      have hlast := ih h
      rw [hmore] at hlast ⊢
      rwa [List.getLast?_cons_cons]
  | hit value w rest hw hsome ih =>
    rw [rewrite_hit hw hsome, List.getLast?_append]
    rw [List.getLast?_append] at h
    rcases List.eq_nil_or_concat rest with rfl | ⟨front, last, rfl⟩
    · obtain ⟨d, hd, hne⟩ := hhit value w [] hsome
      rw [rewrite_nil, List.getLast?_nil, Option.none_or, hd]
      exact fun heq => hne (Option.some.inj heq)
    · rw [List.concat_eq_append] at h ih ⊢
      rw [List.getLast?_concat, Option.some_or] at h
      have hlast := ih (by rwa [List.getLast?_concat])
      have hsome := hends (front ++ [last]) (List.append_ne_nil_of_right_ne_nil _ (List.cons_ne_nil _ _))
      rw [List.getLast?_eq_getLast_of_ne_nil hsome] at hlast ⊢
      rwa [Option.some_or]

/-- The first character of a text stays, if occurrences begin with it before and after. -/
theorem head?_rewrite {c : Char} (hread : read.BeginsWith c)
    (hhit : ∀ value w rest, read (w ++ rest) = some (value, rest) → (onHit value w).head? = some c)
    (hconsumes : read.Consumes) (text : Text) : (rewrite read onHit text).head? = text.head? := by
  cases text with
  | nil => rfl
  | cons d cs =>
    cases hr : read (d :: cs) with
    | none =>
      rw [rewrite_cons hr]
      rfl
    | some result =>
      obtain ⟨value, rest⟩ := result
      have hd := hread _ _ _ hr
      obtain ⟨w, hw, htext⟩ := hconsumes _ _ _ hr
      rw [hd, htext, rewrite_hit hw (by rw [← htext]; exact hr), List.head?_append,
        hhit value w rest (by rw [← htext]; exact hr)]
      rfl

/-- A text stays if a character is not in the result that is in everything put in the place of an
occurrence. -/
theorem rewrite_eq_self {c : Char} (hread : read.Consumes)
    (hhit : ∀ value w rest, read (w ++ rest) = some (value, rest) → onHit value w = w ∨ c ∈ onHit value w)
    {text : Text} (h : c ∉ rewrite read onHit text) : rewrite read onHit text = text := by
  induction text using reading hread with
  | nil => rfl
  | gap d cs hnone ih =>
    rw [rewrite_cons hnone] at h ⊢
    rw [ih fun hm => h (List.mem_cons_of_mem d hm)]
  | hit value w rest hw hsome ih =>
    rw [rewrite_hit hw hsome] at h ⊢
    rcases hhit value w rest hsome with heq | hm
    · rw [heq, ih fun hm => h (List.mem_append_right _ hm)]
    · exact absurd (List.mem_append_left _ hm) h

/-- The end of the result behind the last such character is the end of the text, perhaps behind what
stands there in the place of an occurrence. -/
theorem suffix_rewrite {c d : Char} (hread : read.Consumes)
    (hhit : ∀ value w rest, read (w ++ rest) = some (value, rest) →
      onHit value w = w ∨ ∃ front back, onHit value w = front ++ c :: back ∧ d ∉ back)
    {text t : Text} (ht : t <:+ rewrite read onHit text) (hfree : c ∉ t) :
    ∃ front back, t = front ++ back ∧ d ∉ front ∧ back <:+ text := by
  have hself : ∀ value w rest, read (w ++ rest) = some (value, rest) →
      onHit value w = w ∨ c ∈ onHit value w := fun value w rest hsome =>
    (hhit value w rest hsome).imp_right fun ⟨_, _, heq, _⟩ => heq ▸ by simp
  induction text using reading hread with
  | nil => exact ⟨[], t, rfl, List.not_mem_nil, ht⟩
  | gap e cs hnone ih =>
    rw [rewrite_cons hnone, List.suffix_cons_iff] at ht
    rcases ht with rfl | ht
    · rw [rewrite_eq_self hread hself fun hm => hfree (List.mem_cons_of_mem e hm)]
      exact ⟨[], e :: cs, rfl, List.not_mem_nil, List.suffix_rfl⟩
    · obtain ⟨front, back, rfl, hfront, hback⟩ := ih ht
      exact ⟨front, back, rfl, hfront, hback.trans (List.suffix_cons e cs)⟩
  | hit value w rest hw hsome ih =>
    rw [rewrite_hit hw hsome] at ht
    obtain ⟨before, hbefore⟩ := ht
    rcases List.append_eq_append_iff.1 hbefore with ⟨left, hleft, rfl⟩ | ⟨left, -, hright⟩
    · have hrest := rewrite_eq_self hread hself fun hm => hfree (List.mem_append_right left hm)
      rw [hrest]
      rcases hhit value w rest hsome with heq | ⟨front, back, heq, hback⟩
      · rw [heq] at hleft
        refine ⟨[], left ++ rest, rfl, List.not_mem_nil, before, ?_⟩
        rw [hleft, List.append_assoc]
      · refine ⟨left, rest, rfl, fun hm => hback ?_, List.suffix_append w rest⟩
        have hleftfree : c ∉ left := fun hc => hfree (List.mem_append_left _ hc)
        have hbehind : left <:+ back := by
          rw [heq] at hleft
          rcases List.append_eq_append_iff.1 hleft with ⟨more, -, hmore⟩ | ⟨more, -, hmore⟩
          · cases more with
            | nil => exact absurd (by rw [← List.nil_append left, ← hmore]; exact List.mem_cons_self) hleftfree
            | cons e more => exact ⟨more, (List.cons.inj hmore).2.symm⟩
          · exact absurd (hmore ▸ by simp) hleftfree
        exact hbehind.subset hm
    · obtain ⟨front, back, rfl, hfront, hback⟩ := ih ⟨left, hright.symm⟩
      exact ⟨front, back, rfl, hfront, hback.trans (List.suffix_append w rest)⟩

end Segment

end FlowTemplate
