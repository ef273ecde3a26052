/-
Blanks reduced, and what a reader of markup that knows quotes makes of it. Such a reader keeps the values
of a tag to the letter and takes any run of blanks around them for one space (`Mode.read`). Collapsed text
is read no longer than the text itself, and the same only where every blank of a value is a lone space
(`Mode.read_collapse_eq_iff`). So a gap between two tags is read the same only if that holds of it and no
value reaches its ends with a blank (`Mode.read_minifyGap_eq_iff`).
-/
import FlowTemplate.Minify.Space
import FlowTemplate.Proofs.Segment

namespace FlowTemplate

namespace Text

/-! ## Collapsed text -/

variable {text blanks : Text} {c : Char}

@[simp] theorem collapse_nil : collapse [] = [] := rfl

theorem collapse_cons_of_not_blank (h : isBlank c = false) (text : Text) :
    collapse (c :: text) = c :: collapse text := by
  rw [collapse.eq_def]
  simp [h]

theorem collapse_cons_of_blank (hc : isBlank c = true) (h : ∀ d ∈ text.head?, isBlank d = false) :
    collapse (c :: text) = ' ' :: collapse text := by
  cases text with
  | nil => simp [collapse, hc]
  | cons d text =>
    rw [collapse.eq_def]
    simp [hc, h d rfl]

theorem collapse_cons_cons_of_blank {d : Char} (hc : isBlank c = true) (hd : isBlank d = true)
    (text : Text) : collapse (c :: d :: text) = collapse (d :: text) := by
  rw [collapse.eq_def]
  simp [hc, hd]

/-- **The recursion of collapsing.** A blank in front of another one is dropped, one in front of anything else
becomes a space, and other characters stay. -/
@[elab_as_elim]
theorem collapsing {motive : Text → Prop} (nil : motive [])
    (dropped : ∀ c d cs, isBlank c = true → isBlank d = true → motive (d :: cs) → motive (c :: d :: cs))
    (space : ∀ c cs, isBlank c = true → (∀ d ∈ cs.head?, isBlank d = false) → motive cs → motive (c :: cs))
    (other : ∀ c cs, isBlank c = false → motive cs → motive (c :: cs)) (text : Text) : motive text := by
  induction text using collapse.induct with
  | case1 => exact nil
  | case2 c hc => exact space c [] hc nofun nil
  | case3 c hc d cs hd ih => exact dropped c d cs hc hd ih
  | case4 c hc d cs hd ih => exact space c (d :: cs) hc (by simpa using hd) ih
  | case5 c cs hc ih => exact other c cs (by simpa using hc) ih

theorem collapse_blank_append (h : blanks.Blank) (hne : blanks ≠ [])
    (htext : ∀ d ∈ text.head?, isBlank d = false) : collapse (blanks ++ text) = ' ' :: collapse text := by
  induction blanks with
  | nil => exact absurd rfl hne
  | cons b blanks ih =>
    have hb : isBlank b = true := h b List.mem_cons_self
    cases blanks with
    | nil => exact collapse_cons_of_blank hb htext
    | cons d blanks =>
      have hd : isBlank d = true := h d (by simp)
      rw [List.cons_append, List.cons_append, collapse_cons_cons_of_blank hb hd]
      exact ih (fun e he => h e (List.mem_cons_of_mem b he)) (List.cons_ne_nil _ _)

theorem collapse_append_cons (hc : isBlank c = false) (front back : Text) :
    collapse (front ++ c :: back) = collapse front ++ c :: collapse back := by
  induction front using collapsing with
  | nil => exact collapse_cons_of_not_blank hc back
  | dropped d e cs hd he ih =>
    rw [List.cons_append, List.cons_append, collapse_cons_cons_of_blank hd he, ← List.cons_append, ih,
      collapse_cons_cons_of_blank hd he]
  | space d cs hd hcs ih =>
    have hbehind : ∀ e ∈ (cs ++ c :: back).head?, isBlank e = false := by
      cases cs with
      | nil => simpa using hc
      | cons e cs => exact hcs
    rw [List.cons_append, collapse_cons_of_blank hd hbehind, ih, collapse_cons_of_blank hd hcs,
      List.cons_append]
  | other d cs hd ih =>
    rw [List.cons_append, collapse_cons_of_not_blank hd, ih, collapse_cons_of_not_blank hd, List.cons_append]

theorem collapse_eq_nil_iff : collapse text = [] ↔ text = [] := by
  refine ⟨fun h => ?_, fun h => by rw [h]; rfl⟩
  induction text using collapsing with
  | nil => rfl
  | dropped c d cs hc hd ih =>
    rw [collapse_cons_cons_of_blank hc hd] at h
    cases ih h
  | space c cs hc hcs =>
    rw [collapse_cons_of_blank hc hcs] at h
    cases h
  | other c cs hc =>
    rw [collapse_cons_of_not_blank hc] at h
    cases h

theorem mem_of_mem_collapse (hc : c ≠ ' ') (h : c ∈ collapse text) : c ∈ text := by
  induction text using collapsing with
  | nil => exact h
  | dropped d e cs hd he ih =>
    rw [collapse_cons_cons_of_blank hd he] at h
    exact List.mem_cons_of_mem d (ih h)
  | space d cs hd hcs ih =>
    rw [collapse_cons_of_blank hd hcs] at h
    exact List.mem_cons_of_mem d (ih ((List.mem_cons.1 h).resolve_left hc))
  | other d cs hd ih =>
    rw [collapse_cons_of_not_blank hd] at h
    exact List.mem_cons.2 ((List.mem_cons.1 h).imp_right ih)

theorem collapse_append_of_not_blank {a : Text} (h : ∀ c ∈ a, isBlank c = false) (b : Text) :
    collapse (a ++ b) = a ++ collapse b := by
  induction a with
  | nil => rfl
  | cons c a ih =>
    rw [List.cons_append, collapse_cons_of_not_blank (h c List.mem_cons_self),
      ih fun d hd => h d (List.mem_cons_of_mem c hd), List.cons_append]

theorem head?_collapse_of_blank (hc : isBlank c = true) (text : Text) :
    (collapse (c :: text)).head? = some ' ' := by
  induction text generalizing c with
  | nil => rw [collapse_cons_of_blank hc (by simp)]; rfl
  | cons d text ih =>
    by_cases hd : isBlank d = true
    · rw [collapse_cons_cons_of_blank hc hd, ih hd]
    · rw [collapse_cons_of_blank hc (by simpa using hd)]
      rfl

theorem prefix_of_prefix_collapse {w : Text} (hw : ∀ c ∈ w, isBlank c = false)
    (h : w <+: collapse text) : w <+: text := by
  induction w generalizing text with
  | nil => exact List.nil_prefix
  | cons d w ih =>
    cases text with
    | nil => exact h
    | cons c text =>
      by_cases hc : isBlank c = true
      · have hhead := head?_collapse_of_blank hc text
        obtain ⟨more, hmore⟩ := h
        rw [← hmore] at hhead
        obtain rfl : d = ' ' := Option.some.inj hhead
        exact absurd (hw ' ' List.mem_cons_self) (by decide)
      · rw [collapse_cons_of_not_blank (by simpa using hc), List.cons_prefix_cons] at h
        exact List.cons_prefix_cons.2 ⟨h.1, ih (fun e he => hw e (List.mem_cons_of_mem d he)) h.2⟩

/-- Two texts can be told apart in parts, if neither part of the first is longer than in the second. -/
theorem append_eq_append_iff_of_le {a b x y : Text} (hab : a.length ≤ b.length)
    (hxy : x.length ≤ y.length) : a ++ x = b ++ y ↔ a = b ∧ x = y := by
  refine ⟨fun h => ?_, fun ⟨ha, hx⟩ => by rw [ha, hx]⟩
  have hlength := congrArg List.length h
  rw [List.length_append, List.length_append] at hlength
  exact List.append_inj h (by omega)

end Text

/-! ## Reading with quotes -/

namespace Minify

/-- Where a reader of markup stands that knows quotes. -/
inductive Mode where
  /-- Between two tags. -/
  | outside
  /-- In a tag but in none of its values, directly behind a blank or not. -/
  | tag (behindBlank : Bool)
  /-- In a value. -/
  | value
  deriving DecidableEq, Repr

namespace Mode

/-- Where the reader stands behind a character. -/
def next : Mode → Char → Mode
  | .outside, c => if c = '<' then .tag false else .outside
  | .tag _, c => if c = '>' then .outside else if c = '"' then .value else .tag (isBlank c)
  | .value, c => if c = '"' then .tag false else .value

/-- What the reader takes from a character. -/
def take : Mode → Char → Text
  | .outside, c => if c = '<' then [c] else []
  | .tag behindBlank, c => if isBlank c then (if behindBlank then [] else [' ']) else [c]
  | .value, c => [c]

/-- Where the reader stands behind a text. -/
def after (mode : Mode) (text : Text) : Mode := text.foldl next mode

/-- The tags of a text, one behind another. Values are read to the letter, any run of blanks in a tag
outside of them as one space. -/
def read : Mode → Text → Text
  | _, [] => []
  | mode, c :: cs => mode.take c ++ (mode.next c).read cs

/-- Every blank in a value is a space, and none stands beside another. -/
def Spaced : Mode → Text → Prop
  | _, [] => True
  | mode, c :: cs =>
    (mode = .value → isBlank c = true → c = ' ' ∧ ∀ d ∈ cs.head?, isBlank d = false) ∧
      (mode.next c).Spaced cs

variable {mode : Mode} {text front back blanks : Text} {c d : Char}

@[simp] theorem after_nil (mode : Mode) : mode.after [] = mode := rfl

@[simp] theorem after_cons (mode : Mode) (c : Char) (text : Text) :
    mode.after (c :: text) = (mode.next c).after text := rfl

@[simp] theorem after_append (mode : Mode) (front back : Text) :
    mode.after (front ++ back) = (mode.after front).after back := List.foldl_append

@[simp] theorem read_nil (mode : Mode) : mode.read [] = [] := rfl

@[simp] theorem read_cons (mode : Mode) (c : Char) (text : Text) :
    mode.read (c :: text) = mode.take c ++ (mode.next c).read text := rfl

@[simp] theorem read_append (mode : Mode) (front back : Text) :
    mode.read (front ++ back) = mode.read front ++ (mode.after front).read back := by
  induction front generalizing mode with
  | nil => rfl
  | cons c front ih => simp [ih]

/-! ### Blanks -/

/-- Behind a blank the reader stands where it stood, but that it knows of the blank in a tag. -/
theorem next_of_blank (hc : isBlank c = true) (mode : Mode) :
    mode.next c = match mode with
      | .outside => .outside
      | .tag _ => .tag true
      | .value => .value := by
  obtain ⟨hopen, hclose, hquote⟩ : c ≠ '<' ∧ c ≠ '>' ∧ c ≠ '"' := by
    refine ⟨?_, ?_, ?_⟩ <;> rintro rfl <;> revert hc <;> decide
  cases mode <;> simp [next, hopen, hclose, hquote, hc]

theorem take_of_blank (hc : isBlank c = true) (mode : Mode) :
    mode.take c = match mode with
      | .outside => []
      | .tag behindBlank => if behindBlank then [] else [' ']
      | .value => [c] := by
  have hopen : c ≠ '<' := by rintro rfl; revert hc; decide
  cases mode <;> simp [take, hopen, hc]

theorem next_next_of_blank (hc : isBlank c = true) (hd : isBlank d = true) (mode : Mode) :
    (mode.next c).next d = mode.next d := by
  simp only [next_of_blank hc, next_of_blank hd]
  cases mode <;> rfl

theorem next_space (hc : isBlank c = true) (mode : Mode) : mode.next ' ' = mode.next c := by
  rw [next_of_blank hc, next_of_blank (by decide)]

theorem after_blanks (h : blanks.Blank) (hmode : ∀ b, mode ≠ .tag b) : mode.after blanks = mode := by
  induction blanks with
  | nil => rfl
  | cons b blanks ih =>
    have hnext : mode.next b = mode := by
      rw [next_of_blank (h b List.mem_cons_self)]
      cases mode with
      | tag b => exact absurd rfl (hmode b)
      | outside | value => rfl
    rw [after_cons, hnext, ih fun d hd => h d (List.mem_cons_of_mem b hd)]

theorem read_value_blanks (h : blanks.Blank) : value.read blanks = blanks := by
  induction blanks with
  | nil => rfl
  | cons b blanks ih =>
    have hb : isBlank b = true := h b List.mem_cons_self
    rw [read_cons, take_of_blank hb, next_of_blank hb, ih fun d hd => h d (List.mem_cons_of_mem b hd)]
    rfl

theorem read_outside (h : '<' ∉ text) : outside.read text = [] ∧ outside.after text = outside := by
  induction text with
  | nil => exact ⟨rfl, rfl⟩
  | cons c text ih =>
    simp only [List.mem_cons, not_or] at h
    simpa [take, next, Ne.symm h.1] using ih h.2

/-! ### Collapsed text -/

theorem after_collapse (mode : Mode) (text : Text) : mode.after text.collapse = mode.after text := by
  induction text using Text.collapsing generalizing mode with
  | nil => rfl
  | dropped c d cs hc hd ih =>
    rw [Text.collapse_cons_cons_of_blank hc hd, ih]
    simp only [after_cons, next_next_of_blank hc hd]
  | space c cs hc hcs ih =>
    rw [Text.collapse_cons_of_blank hc hcs, after_cons, ih, next_space hc]
    rfl
  | other c cs hc ih =>
    rw [Text.collapse_cons_of_not_blank hc, after_cons, ih]
    rfl

theorem length_take_space (hc : isBlank c = true) (mode : Mode) :
    (mode.take ' ').length = (mode.take c).length := by
  rw [take_of_blank hc, take_of_blank (by decide)]
  cases mode <;> rfl

theorem read_cons_cons_of_blank (hc : isBlank c = true) (hd : isBlank d = true) (hmode : mode ≠ .value)
    (text : Text) : mode.read (c :: d :: text) = mode.read (d :: text) := by
  simp only [read_cons, next_next_of_blank hc hd, ← List.append_assoc]
  congr 1
  simp only [take_of_blank hc, take_of_blank hd, next_of_blank hc]
  cases mode with
  | outside => rfl
  | tag b => exact List.append_nil _
  | value => exact absurd rfl hmode

theorem length_read_collapse_le (mode : Mode) (text : Text) :
    (mode.read text.collapse).length ≤ (mode.read text).length := by
  induction text using Text.collapsing generalizing mode with
  | nil => exact le_rfl
  | dropped c d cs hc hd ih =>
    rw [Text.collapse_cons_cons_of_blank hc hd]
    refine (ih mode).trans ?_
    by_cases hmode : mode = .value
    · subst hmode
      simp [next_of_blank hc, take_of_blank hc]
    · rw [read_cons_cons_of_blank hc hd hmode]
  | space c cs hc hcs ih =>
    rw [Text.collapse_cons_of_blank hc hcs, read_cons, read_cons, next_space hc, List.length_append,
      List.length_append, length_take_space hc]
    exact Nat.add_le_add_left (ih _) _
  | other c cs hc ih =>
    rw [Text.collapse_cons_of_not_blank hc, read_cons, read_cons, List.length_append, List.length_append]
    exact Nat.add_le_add_left (ih _) _

theorem read_collapse_eq_iff (mode : Mode) (text : Text) :
    mode.read text.collapse = mode.read text ↔ mode.Spaced text := by
  have hspace : ∀ {mode : Mode} {c : Char}, isBlank c = true →
      (mode.take ' ' = mode.take c ↔ (mode = .value → c = ' ')) := by
    intro mode c hc
    rw [take_of_blank hc, take_of_blank (by decide)]
    cases mode <;> simp [eq_comm]
  induction text using Text.collapsing generalizing mode with
  | nil => simp [Spaced]
  | dropped c d cs hc hd ih =>
    rw [Text.collapse_cons_cons_of_blank hc hd]
    by_cases hmode : mode = .value
    · subst hmode
      have hshort := length_read_collapse_le .value (d :: cs)
      refine iff_of_false (fun h => ?_) fun h => ?_
      · rw [h, read_cons .value c, take_of_blank hc, next_of_blank hc] at hshort
        exact absurd hshort (Nat.not_succ_le_self _)
      · have := (h.1 rfl hc).2 d rfl
        rw [hd] at this
        cases this
    · rw [read_cons_cons_of_blank hc hd hmode]
      refine (ih mode).trans ?_
      have hnext : mode.next c ≠ .value := by
        rw [next_of_blank hc]
        cases mode <;> simp_all
      simp only [Spaced, hmode, hnext, false_implies, true_and, next_next_of_blank hc hd]
  | space c cs hc hcs ih =>
    rw [Text.collapse_cons_of_blank hc hcs, read_cons, read_cons mode c, next_space hc,
      Text.append_eq_append_iff_of_le (length_take_space hc mode).le (length_read_collapse_le _ _),
      hspace hc]
    refine (and_congr_right' (ih (mode.next c))).trans (and_congr_left' ?_)
    exact ⟨fun h hmode _ => ⟨h hmode, hcs⟩, fun h hmode => (h hmode hc).1⟩
  | other c cs hc ih =>
    rw [Text.collapse_cons_of_not_blank hc, read_cons, read_cons, List.append_cancel_left_eq]
    refine (ih (mode.next c)).trans ?_
    simp [Spaced, hc]

/-! ### Gaps -/

theorem spaced_append (h : mode.after front = .value → (∀ c ∈ front.getLast?, isBlank c = false) ∨
    ∀ d ∈ back.head?, isBlank d = false) :
    mode.Spaced (front ++ back) ↔ mode.Spaced front ∧ (mode.after front).Spaced back := by
  induction front generalizing mode with
  | nil => simp [Spaced]
  | cons c front ih =>
    cases front with
    | nil =>
      simp only [List.cons_append, List.nil_append, Spaced, after_cons, after_nil, and_true]
      refine and_congr_left' ⟨fun hc hmode hblank => ⟨(hc hmode hblank).1, nofun⟩, ?_⟩
      rintro hc rfl hblank
      refine ⟨(hc rfl hblank).1, (h (next_of_blank hblank .value)).resolve_left fun hlast => ?_⟩
      rw [hlast c rfl] at hblank
      cases hblank
    | cons d front =>
      rw [List.getLast?_cons_cons] at h
      exact (and_congr_right' (ih h)).trans and_assoc.symm

theorem spaced_outside (h : '<' ∉ text) : outside.Spaced text := by
  induction text with
  | nil => trivial
  | cons c text ih =>
    simp only [List.mem_cons, not_or] at h
    refine ⟨fun hmode => (nomatch hmode), ?_⟩
    rw [next, if_neg (Ne.symm h.1)]
    exact ih h.2

theorem after_tag_blanks (h : blanks.Blank) (b : Bool) :
    ∃ behindBlank, (tag b).after blanks = tag behindBlank := by
  induction blanks generalizing b with
  | nil => exact ⟨b, rfl⟩
  | cons c blanks ih =>
    simp only [after_cons, next_of_blank (h c List.mem_cons_self)]
    exact ih (fun d hd => h d (List.mem_cons_of_mem c hd)) true

/-- Text between blanks of which only the middle is left, and that collapsed. In a value no blank may
stand around it, then, and the middle has to be spaced. -/
theorem read_collapse_between_iff {before middle behind : Text} (hbefore : before.Blank)
    (hbehind : behind.Blank) (hafter : ∀ b, value.after (before ++ (middle ++ behind)) ≠ .tag b) :
    value.read middle.collapse = value.read (before ++ (middle ++ behind)) ↔
      before = [] ∧ value.Spaced middle ∧ (value.after middle = .value → behind = []) := by
  have hstand : value.after before = value := after_blanks hbefore (by simp)
  rw [after_append, hstand, after_append] at hafter
  have hmiddle : ∀ b, value.after middle ≠ .tag b := by
    intro b hb
    obtain ⟨behindBlank, hbehindBlank⟩ := after_tag_blanks hbehind b
    exact hafter behindBlank (by rw [hb, hbehindBlank])
  have hread : (value.after middle).read behind = [] ↔ (value.after middle = .value → behind = []) := by
    cases hend : value.after middle with
    | outside => simp [(read_outside (hbehind.not_mem (by decide))).1]
    | tag b => exact absurd hend (hmiddle b)
    | value => simp [read_value_blanks hbehind]
  rw [read_append, read_append, hstand, read_value_blanks hbefore, ← hread,
    ← read_collapse_eq_iff .value middle]
  have hle := length_read_collapse_le .value middle
  rw [← List.nil_append (value.read middle.collapse),
    Text.append_eq_append_iff_of_le (Nat.zero_le _) (by rw [List.length_append]; omega)]
  conv_lhs => rw [← List.append_nil (value.read middle.collapse)]
  rw [Text.append_eq_append_iff_of_le hle (Nat.zero_le _), List.nil_append]
  simp only [eq_comm]

end Mode

/-- The space for the blanks in front of a middle is what they collapse to. -/
theorem spaceFor_append_collapse {before middle : Text} (hbefore : before.Blank) (hne : middle ≠ [])
    (hhead : ∀ c ∈ middle.head?, isBlank c = false) (rest : Text) :
    spaceFor (before ++ (middle ++ rest)).head? ++ middle.collapse = (before ++ middle).collapse := by
  cases before with
  | nil =>
    obtain ⟨c, cs, rfl⟩ := List.exists_cons_of_ne_nil hne
    have hc : isBlank c = false := hhead c rfl
    simp [spaceFor, hc]
  | cons b before =>
    have hb : isBlank b = true := hbefore b List.mem_cons_self
    rw [Text.collapse_blank_append hbefore (List.cons_ne_nil _ _) hhead]
    simp [spaceFor, hb]

/-- The space for the blanks behind a middle is what they collapse to. -/
theorem collapse_append_spaceFor {middle behind : Text} (hbehind : behind.Blank) (hne : middle ≠ [])
    (hlast : ∀ c ∈ middle.getLast?, isBlank c = false) (front : Text) :
    middle.collapse ++ spaceFor (front ++ (middle ++ behind)).getLast? = (middle ++ behind).collapse := by
  obtain ⟨words, c, rfl⟩ := (List.eq_nil_or_concat middle).resolve_left hne
  rw [List.concat_eq_append] at hlast ⊢
  have hc : isBlank c = false := hlast c List.getLast?_concat
  have hspace : spaceFor (front ++ (words ++ [c] ++ behind)).getLast? = behind.collapse := by
    rcases List.eq_nil_or_concat behind with rfl | ⟨blanks, b, rfl⟩
    · rw [List.append_nil, ← List.append_assoc, List.getLast?_concat]
      simp [spaceFor, hc]
    · have hb : isBlank b = true := hbehind b (by simp)
      have hcollapse : Text.collapse (blanks.concat b ++ []) = ' ' :: Text.collapse [] :=
        Text.collapse_blank_append hbehind (by simp) (by simp)
      rw [List.append_nil] at hcollapse
      rw [hcollapse, List.concat_eq_append, ← List.append_assoc, ← List.append_assoc, List.getLast?_concat]
      simp [spaceFor, hb]
  have hwords := Text.collapse_append_cons hc words []
  have hwhole := Text.collapse_append_cons hc words behind
  rw [hspace, hwords, List.append_assoc, List.append_assoc]
  exact hwhole.symm

/-- A gap with blanks around its middle, which are lost. The middle is left, collapsed, and no blank is at an
end of it where a tag is at the other end of the gap. -/
structure Shrinks (afterTag beforeTag : Bool) (text before middle behind : Text) : Prop where
  before_blank : before.Blank
  behind_blank : behind.Blank
  text_eq : text = before ++ (middle ++ behind)
  minify_eq : minifyGap afterTag beforeTag text = middle.collapse
  last : afterTag = true → ∀ c ∈ middle.getLast?, isBlank c = false
  head : beforeTag = true → ∀ c ∈ middle.head?, isBlank c = false

/-- Behind a tag a gap of blanks is lost, and else none of the blanks in front of the last words is where no
tag comes behind. -/
structure ShrinksBehindTag (beforeTag : Bool) (text before middle behind : Text) : Prop extends
    Shrinks true beforeTag text before middle behind where
  blank : middle = [] → text.Blank ∧ behind = []
  front : beforeTag = false → middle ≠ [] → before = []

theorem exists_shrinksBehindTag (beforeTag : Bool) (text : Text) :
    ∃ before middle behind, ShrinksBehindTag beforeTag text before middle behind := by
  by_cases htrim : text.trim = []
  · have hblank := Text.Blank.of_trim htrim
    exact ⟨text, [], [], {
      before_blank := hblank
      behind_blank := Text.Blank.nil
      text_eq := by simp
      minify_eq := by cases beforeTag <;> simp [minifyGap, htrim]
      last := fun _ => nofun
      head := fun _ => nofun
      blank := fun _ => ⟨hblank, rfl⟩
      front := fun _ h => absurd rfl h }⟩
  obtain ⟨before, behind, hbefore, hbehind, htext⟩ := text.exists_blanks_trim
  obtain ⟨hhead, hlast⟩ := Text.trim_eq_self_iff.1 (Text.trim_trim text)
  cases beforeTag with
  | true =>
    exact ⟨before, text.trim, behind, {
      before_blank := hbefore
      behind_blank := hbehind
      text_eq := htext
      minify_eq := rfl
      last := fun _ => hlast
      head := fun _ => hhead
      blank := fun h => absurd h htrim
      front := nofun }⟩
  | false =>
    have hmiddle : before ++ text.trim ≠ [] := List.append_ne_nil_of_right_ne_nil _ htrim
    have hwords : text.trim.collapse.isEmpty = false :=
      List.isEmpty_eq_false_iff.2 (mt Text.collapse_eq_nil_iff.1 htrim)
    have hspace := spaceFor_append_collapse hbefore htrim hhead behind
    rw [← htext] at hspace
    exact ⟨[], before ++ text.trim, behind, {
      before_blank := Text.Blank.nil
      behind_blank := hbehind
      text_eq := by rw [List.nil_append, List.append_assoc]; exact htext
      minify_eq := by simp only [minifyGap, hwords, hspace, Bool.false_eq_true, if_false]
      last := fun _ => by rwa [List.getLast?_append_of_ne_nil _ htrim]
      head := nofun
      blank := fun h => absurd h hmiddle
      front := fun _ _ => rfl }⟩

theorem exists_shrinks (afterTag beforeTag : Bool) (text : Text) :
    ∃ before middle behind, Shrinks afterTag beforeTag text before middle behind := by
  match afterTag, beforeTag with
  | true, beforeTag =>
    obtain ⟨before, middle, behind, h⟩ := exists_shrinksBehindTag beforeTag text
    exact ⟨before, middle, behind, h.toShrinks⟩
  | false, false =>
    exact ⟨[], text, [], Text.Blank.nil, Text.Blank.nil, by simp, rfl, nofun, nofun⟩
  | false, true =>
    by_cases htrim : text.trim = []
    · exact ⟨text, [], [], Text.Blank.of_trim htrim, Text.Blank.nil, by simp, by simp [minifyGap, htrim],
        nofun, fun _ => nofun⟩
    obtain ⟨before, behind, hbefore, hbehind, htext⟩ := text.exists_blanks_trim
    have hwords : text.trim.collapse.isEmpty = false :=
      List.isEmpty_eq_false_iff.2 (mt Text.collapse_eq_nil_iff.1 htrim)
    have hspace := collapse_append_spaceFor hbehind htrim text.last_trim before
    rw [← htext] at hspace
    exact ⟨before, text.trim ++ behind, [], {
      before_blank := hbefore
      behind_blank := Text.Blank.nil
      text_eq := by rwa [List.append_nil]
      minify_eq := by simp only [minifyGap, hwords, hspace, Bool.false_eq_true, if_false]
      last := nofun
      head := fun _ => by rw [List.head?_append_of_ne_nil _ htrim]; exact text.head_trim }⟩

namespace Mode

variable {mode : Mode} {text : Text} {beforeTag : Bool}

theorem after_shrinks {before middle behind : Text} (h : Shrinks true beforeTag text before middle behind)
    (hafter : ∀ b, value.after text ≠ .tag b) : value.after middle = value.after text := by
  have hwhole : value.after text = (value.after middle).after behind := by
    rw [h.text_eq, after_append, after_blanks h.before_blank (by simp), after_append]
  rw [hwhole, after_blanks h.behind_blank]
  intro b hb
  obtain ⟨behindBlank, hbehindBlank⟩ := after_tag_blanks h.behind_blank b
  exact hafter behindBlank (by rw [hwhole, hb, hbehindBlank])

theorem after_minifyGap (hafter : ∀ b, value.after text ≠ .tag b) :
    value.after (minifyGap true beforeTag text) = value.after text := by
  obtain ⟨before, middle, behind, h⟩ := exists_shrinks true beforeTag text
  rw [h.minify_eq, after_collapse, after_shrinks h hafter]

theorem length_read_minifyGap_le (beforeTag : Bool) (text : Text) :
    (value.read (minifyGap true beforeTag text)).length ≤ (value.read text).length := by
  obtain ⟨before, middle, behind, h⟩ := exists_shrinks true beforeTag text
  have hle := length_read_collapse_le .value middle
  rw [h.minify_eq, h.text_eq, read_append, read_append, after_blanks h.before_blank (by simp),
    List.length_append, List.length_append]
  omega

/-- Nothing is lost in front of a gap that a value goes on in if no blank stands there before a tag. -/
theorem before_eq_nil_iff {before middle behind : Text}
    (h : ShrinksBehindTag beforeTag text before middle behind)
    (hlast : beforeTag = false → value.after text = .outside) :
    before = [] ↔ (beforeTag = true → ∀ c ∈ text.head?, isBlank c = false) := by
  constructor
  · rintro rfl htag
    cases middle with
    | nil =>
      rw [h.text_eq, (h.blank rfl).2]
      simp
    | cons c middle => exact h.text_eq ▸ h.head htag
  · intro hhead
    cases beforeTag with
    | true =>
      cases before with
      | nil => rfl
      | cons b before =>
        have hb := hhead rfl b (by rw [h.text_eq]; rfl)
        rw [h.before_blank b List.mem_cons_self] at hb
        cases hb
    | false =>
      refine h.front rfl fun hnil => ?_
      have hvalue : value.after text = value := after_blanks (h.blank hnil).1 (by simp)
      rw [hlast rfl] at hvalue
      cases hvalue

/-- A gap that a value goes on in is read the same if its values are spaced and no blank stands at an
end of it where a tag follows. -/
theorem read_minifyGap_eq_iff (hafter : ∀ b, value.after text ≠ .tag b)
    (hlast : beforeTag = false → value.after text = .outside) :
    value.read (minifyGap true beforeTag text) = value.read text ↔
      value.Spaced text ∧ (beforeTag = true → ∀ c ∈ text.head?, isBlank c = false) ∧
        (value.after text = .value → ∀ c ∈ text.getLast?, isBlank c = false) := by
  obtain ⟨before, middle, behind, h⟩ := exists_shrinksBehindTag beforeTag text
  have htext := h.text_eq
  have hend := h.last rfl
  have hbehind := h.behind_blank
  have hbeforeNil := before_eq_nil_iff h hlast
  have hmiddle := after_shrinks h.toShrinks hafter
  rw [h.minify_eq, htext, read_collapse_between_iff h.before_blank hbehind (htext ▸ hafter), ← htext,
    hbeforeNil]
  constructor
  · rintro ⟨hhead, hspaced, hbehindNil⟩
    obtain rfl := hbeforeNil.2 hhead
    rw [List.nil_append] at htext
    refine ⟨?_, hhead, fun hvalue => ?_⟩
    · rw [htext, spaced_append fun _ => .inl hend]
      refine ⟨hspaced, ?_⟩
      cases hstop : value.after middle with
      | value => rw [hbehindNil hstop]; trivial
      | outside => exact spaced_outside (hbehind.not_mem (by decide))
      | tag b => exact absurd (hmiddle ▸ hstop) (hafter b)
    · rw [htext, hbehindNil (hmiddle.trans hvalue), List.append_nil]
      exact hend
  · rintro ⟨hspaced, hhead, htail⟩
    obtain rfl := hbeforeNil.2 hhead
    rw [List.nil_append] at htext
    rw [htext, spaced_append fun _ => .inl hend] at hspaced
    refine ⟨hhead, hspaced.1, fun hvalue => ?_⟩
    by_contra hne
    have hmem := List.getLast?_eq_getLast_of_ne_nil hne
    have := htail (hmiddle ▸ hvalue) (behind.getLast hne) (by
      rw [htext, List.getLast?_append_of_ne_nil _ hne]; exact hmem)
    rw [hbehind _ (List.getLast_mem hne)] at this
    cases this

/-- A gap between tags, or one that goes on in the value in which a tag was taken to end. It does not end
in a tag outside of the values. -/
def FramedGap (mode : Mode) (afterTag beforeTag : Bool) (text : Text) : Prop :=
  mode = .outside ∧ '<' ∉ text ∨
    mode = .value ∧ afterTag = true ∧ (∀ b, mode.after text ≠ .tag b) ∧
      (beforeTag = false → mode.after text = .outside)

/-- The blanks of values in a gap are lone spaces, and none of them stands at an end of the gap that a tag
follows on. -/
def SettledGap (mode : Mode) (beforeTag : Bool) (text : Text) : Prop :=
  mode.Spaced text ∧ (mode = .value → beforeTag = true → ∀ c ∈ text.head?, isBlank c = false) ∧
    (mode.after text = .value → ∀ c ∈ text.getLast?, isBlank c = false)

variable {afterTag : Bool}

theorem not_mem_minifyGap (h : '<' ∉ text) (afterTag beforeTag : Bool) :
    '<' ∉ minifyGap afterTag beforeTag text := by
  have hwords : '<' ∉ text.trim.collapse := fun hm =>
    h (Text.mem_of_mem_trim (Text.mem_of_mem_collapse (by decide) hm))
  have hspace : ∀ c?, '<' ∉ spaceFor c? := by
    intro c?
    rw [spaceFor]
    split <;> simp
  cases afterTag <;> cases beforeTag <;> simp only [minifyGap]
  · exact fun hm => h (Text.mem_of_mem_collapse (by decide) hm)
  · split
    · exact List.not_mem_nil
    · exact List.not_mem_append hwords (hspace _)
  · split
    · exact List.not_mem_nil
    · exact List.not_mem_append (hspace _) hwords
  · exact hwords

/-- What becomes of a gap: the reader stands behind it where it stood behind the gap, reads no more of it,
and the same only of a settled one. -/
theorem FramedGap.minifyGap (h : mode.FramedGap afterTag beforeTag text) :
    mode.after (minifyGap afterTag beforeTag text) = mode.after text ∧
      (mode.read (Minify.minifyGap afterTag beforeTag text)).length ≤ (mode.read text).length ∧
      (mode.read (Minify.minifyGap afterTag beforeTag text) = mode.read text ↔
        mode.SettledGap beforeTag text) := by
  obtain ⟨rfl, hfree⟩ | ⟨rfl, rfl, hafter, hlast⟩ := h
  · obtain ⟨hread, hstand⟩ := read_outside hfree
    obtain ⟨hread', hstand'⟩ := read_outside (not_mem_minifyGap hfree afterTag beforeTag)
    rw [hread, hstand, hread', hstand']
    refine ⟨rfl, le_rfl, iff_of_true rfl ⟨spaced_outside hfree, fun h => (nomatch h), fun h => ?_⟩⟩
    rw [hstand] at h
    cases h
  · refine ⟨after_minifyGap hafter, length_read_minifyGap_le _ _, ?_⟩
    rw [read_minifyGap_eq_iff hafter hlast]
    simp [SettledGap]

/-! ### Parts -/

/-- Every gap is framed where it stands. -/
def Framed : Mode → Bool → List (Segment Unit) → Prop
  | _, _, [] => True
  | mode, _, .hit _ w :: rest => (mode.after w).Framed true rest
  | mode, afterTag, .gap text :: rest =>
    mode.FramedGap afterTag (!rest.isEmpty) text ∧ (mode.after text).Framed false rest

/-- Every gap is settled where it stands. Whether a tag comes behind the last one has to be known. -/
def Settled (last : Bool) : Mode → List (Segment Unit) → Prop
  | _, [] => True
  | mode, .hit _ w :: rest => (mode.after w).Settled last rest
  | mode, .gap text :: rest =>
    mode.SettledGap (!rest.isEmpty || !last) text ∧ (mode.after text).Settled last rest

theorem length_read_minifyParts_le {segments : List (Segment Unit)} (h : mode.Framed afterTag segments) :
    (mode.read (minifyParts afterTag segments)).length ≤
      (mode.read (segments.flatMap Segment.text)).length := by
  induction segments generalizing mode afterTag with
  | nil => exact le_rfl
  | cons segment rest ih =>
    cases segment with
    | hit value w =>
      rw [minifyParts, List.flatMap_cons, Segment.text, read_append, read_append, List.length_append,
        List.length_append]
      exact Nat.add_le_add_left (ih h) _
    | gap text =>
      obtain ⟨hgap, hrest⟩ := h
      obtain ⟨hafter, hle, -⟩ := hgap.minifyGap
      rw [minifyParts, List.flatMap_cons, Segment.text, read_append, read_append, List.length_append,
        List.length_append, hafter]
      exact Nat.add_le_add hle (ih hrest)

/-- **Parts are read the same if every gap is settled.** -/
theorem read_minifyParts_eq_iff {segments : List (Segment Unit)} (h : mode.Framed afterTag segments) :
    mode.read (minifyParts afterTag segments) = mode.read (segments.flatMap Segment.text) ↔
      mode.Settled true segments := by
  induction segments generalizing mode afterTag with
  | nil => exact iff_of_true rfl trivial
  | cons segment rest ih =>
    cases segment with
    | hit value w =>
      rw [minifyParts, List.flatMap_cons, Segment.text, read_append, read_append,
        List.append_cancel_left_eq]
      exact ih h
    | gap text =>
      obtain ⟨hgap, hrest⟩ := h
      obtain ⟨hafter, hle, hread⟩ := hgap.minifyGap
      rw [minifyParts, List.flatMap_cons, Segment.text, read_append, read_append, hafter,
        Text.append_eq_append_iff_of_le hle (length_read_minifyParts_le hrest), hread, ih hrest]
      simp [Settled]

end Mode

end Minify

end FlowTemplate
