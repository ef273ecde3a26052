/-
Documents with quoted values, and what becomes of the values where white space is reduced. A tag is taken
to end at its first closing angle, be that in a value. What is left of the tag counts as text then, and its
blanks are reduced although they stand in values. So the tags of a document come through unchanged exactly
if every tag with such a value is settled (`Document.minifySpace_reads_iff`). A tag without closing angles in
its values is (`Tag.settled_of_free`).
-/
import FlowTemplate.Proofs.Minify.Space
import FlowTemplate.Proofs.Minify.Tag
import Mathlib.Data.List.Chain

namespace FlowTemplate.Minify

open Markup

variable {text rest w : Text}

/-! ## Documents -/

/-- A value in double quotes and what stands in front of it: blanks, its name with the sign, and attributes
without a value that come before it. -/
structure Attribute where
  label : Text
  label_head : ∃ c ∈ label.head?, isBlank c = true
  label_free : ∀ c ∈ label, c ≠ '<' ∧ c ≠ '>' ∧ c ≠ '"'
  value : Text
  value_free : '"' ∉ value

/-- A tag as an author writes it, opening or closing. Its values may have anything in them but a quote. -/
structure Tag where
  slash : Bool
  name : Text
  isName : IsName name
  attributes : List Attribute
  ending : Text
  ending_head : ending = [] ∨ ending = ['/'] ∨ ∃ c ∈ ending.head?, isBlank c = true
  ending_free : ∀ c ∈ ending, c ≠ '<' ∧ c ≠ '>' ∧ c ≠ '"'

/-- A tag and the text behind it. -/
structure Piece where
  tag : Tag
  behind : Text
  behind_free : '<' ∉ behind

/-- Text and tags. -/
structure Document where
  front : Text
  front_free : '<' ∉ front
  pieces : List Piece

def Attribute.source (attr : Attribute) : Text := attr.label ++ '"' :: (attr.value ++ ['"'])

/-- The attribute with one space for every run of blanks in front of its value. -/
def Attribute.plain (attr : Attribute) : Text := attr.label.collapse ++ '"' :: (attr.value ++ ['"'])

namespace Tag

/-- The part of a tag in front of its attributes. -/
def head (tag : Tag) : Text := (if tag.slash then ['/'] else []) ++ tag.name

def inside (tag : Tag) : Text := tag.attributes.flatMap Attribute.source ++ tag.ending

def source (tag : Tag) : Text := '<' :: (tag.head ++ (tag.inside ++ ['>']))

/-- The tag with one space for every run of blanks outside of its values. -/
def plain (tag : Tag) : Text :=
  '<' :: (tag.head ++ (tag.attributes.flatMap Attribute.plain ++ (tag.ending.collapse ++ ['>'])))

/-- Where the tag is taken to end in a value, the blanks of the values behind that are lone spaces, and
none of them stands beside something that is taken for a tag. -/
def Settled (tag : Tag) (last : Bool) : Prop := Mode.outside.Settled last (parts tag.source)

end Tag

def Piece.source (piece : Piece) : Text := piece.tag.source ++ piece.behind

namespace Document

def source (document : Document) : Text := document.front ++ document.pieces.flatMap Piece.source

/-- The tags of a document, one behind another, with their values to the letter. -/
def plain (document : Document) : Text := document.pieces.flatMap fun piece => piece.tag.plain

end Document

/-- The tags that are read of a text where quotes are known. -/
def readTags (text : Text) : Text := Mode.outside.read text

/-- All tags are settled. Only the last one has no tag behind it. -/
def SettledPieces : List Piece → Prop
  | [] => True
  | piece :: pieces => piece.tag.Settled pieces.isEmpty ∧ SettledPieces pieces

/-! ### What is read of them -/

namespace Mode

variable {mode : Mode}

theorem read_tag (h : ∀ c ∈ text, c ≠ '<' ∧ c ≠ '>' ∧ c ≠ '"') (behindBlank : Bool) :
    (tag behindBlank).read text = (if behindBlank then text.trimStart else text).collapse := by
  induction text generalizing behindBlank with
  | nil => cases behindBlank <;> rfl
  | cons c text ih =>
    obtain ⟨⟨-, hclose, hquote⟩, hrest⟩ := List.forall_mem_cons.1 h
    rw [read_cons]
    cases hc : isBlank c with
    | true =>
      rw [take_of_blank hc, next_of_blank hc, ih hrest]
      obtain ⟨blanks, hblanks, htext⟩ := Text.exists_blank_append_trimStart text
      have hfirst : Text.Blank (c :: blanks) := List.forall_mem_cons.2 ⟨hc, hblanks⟩
      have hcollapse : Text.collapse (c :: text) = ' ' :: (Text.trimStart text).collapse := by
        have := Text.collapse_blank_append hfirst (List.cons_ne_nil _ _) (Text.head_trimStart text)
        rwa [List.cons_append, ← htext] at this
      cases behindBlank with
      | true => simp [Text.trimStart, List.dropWhile_cons_of_pos hc]
      | false => simp [hcollapse]
    | false =>
      have hstart : Text.trimStart (c :: text) = c :: text := Text.trimStart_of_head (by simpa using hc)
      simp [hstart, take, next, hc, hclose, hquote, ih hrest, Text.collapse_cons_of_not_blank hc]

theorem after_tag (h : ∀ c ∈ text, c ≠ '<' ∧ c ≠ '>' ∧ c ≠ '"') (behindBlank : Bool) :
    ∃ b, (tag behindBlank).after text = tag b := by
  induction text generalizing behindBlank with
  | nil => exact ⟨_, rfl⟩
  | cons c text ih =>
    obtain ⟨⟨-, hclose, hquote⟩, hrest⟩ := List.forall_mem_cons.1 h
    rw [after_cons, next, if_neg hclose, if_neg hquote]
    exact ih hrest _

theorem read_value (h : '"' ∉ text) : value.read text = text ∧ value.after text = value := by
  induction text with
  | nil => exact ⟨rfl, rfl⟩
  | cons c text ih =>
    simp only [List.mem_cons, not_or] at h
    simpa [take, next, Ne.symm h.1] using ih h.2

/-- A tag is open up to the end of the text, and opening angles stand in its values only. -/
def Angled : Mode → Text → Prop
  | mode, [] => mode = .outside
  | mode, c :: cs => mode ≠ .outside ∧ (c = '<' → mode = .value) ∧ (mode.next c).Angled cs

theorem Angled.back {front back : Text} (h : mode.Angled (front ++ back)) :
    (mode.after front).Angled back := by
  induction front generalizing mode with
  | nil => exact h
  | cons c front ih => exact ih h.2.2

theorem Angled.eq_nil (h : outside.Angled text) : text = [] := by
  cases text with
  | nil => rfl
  | cons c text => exact absurd rfl h.1

theorem angled_tag (h : ∀ c ∈ text, c ≠ '<' ∧ c ≠ '>' ∧ c ≠ '"') (hrest : ∀ b, (tag b).Angled rest)
    (behindBlank : Bool) : (tag behindBlank).Angled (text ++ rest) := by
  induction text generalizing behindBlank with
  | nil => exact hrest behindBlank
  | cons c text ih =>
    obtain ⟨⟨hopen, hclose, hquote⟩, hmore⟩ := List.forall_mem_cons.1 h
    refine ⟨by simp, fun heq => absurd heq hopen, ?_⟩
    rw [next, if_neg hclose, if_neg hquote]
    exact ih hmore _

theorem angled_value (h : '"' ∉ text) (hrest : (tag false).Angled rest) :
    value.Angled (text ++ '"' :: rest) := by
  induction text with
  | nil => exact ⟨by simp, fun heq => absurd heq (by decide), hrest⟩
  | cons c text ih =>
    simp only [List.mem_cons, not_or] at h
    refine ⟨by simp, fun _ => rfl, ?_⟩
    rw [next, if_neg (Ne.symm h.1)]
    exact ih h.2

theorem after_isTag (h : IsTag w) (mode : Mode) (b : Bool) : mode.after w ≠ tag b := by
  obtain ⟨front, rfl, -⟩ := h.ends
  rw [← List.cons_append, after_append, after_cons, after_nil]
  cases mode.after ('<' :: front) <;> simp [next]

/-- The parts of the rest of a tag are framed. -/
theorem framed_of_angled {afterTag : Bool} {segments : List (Segment Unit)}
    (halternates : Segment.Alternates segments) (hne : ∀ segment ∈ segments, segment.text ≠ [])
    (htags : ∀ w, Segment.hit () w ∈ segments → IsTag w)
    (hangled : mode.Angled (segments.flatMap Segment.text)) (hmode : ∀ b, mode ≠ tag b)
    (hflag : afterTag = true ∨ ∀ segment ∈ segments.head?, segment.isGap = false) :
    mode.Framed afterTag segments := by
  induction segments generalizing mode afterTag with
  | nil => trivial
  | cons segment rest ih =>
    obtain ⟨hfirst, hnerest⟩ := List.forall_mem_cons.1 hne
    have htagsrest : ∀ w, Segment.hit () w ∈ rest → IsTag w := fun w hw =>
      htags w (List.mem_cons_of_mem _ hw)
    have halternatesrest := halternates.tail
    rw [List.flatMap_cons] at hangled
    cases segment with
    | hit value w =>
      exact ih halternatesrest hnerest htagsrest hangled.back
        (after_isTag (htags w List.mem_cons_self) mode) (.inl rfl)
    | gap text =>
      have hvalue : mode = .value := by
        cases mode with
        | value => rfl
        | tag b => exact absurd rfl (hmode b)
        | outside => exact absurd (List.append_eq_nil_iff.1 hangled.eq_nil).1 hfirst
      have htag : afterTag = true := hflag.resolve_right fun h => Bool.noConfusion (h _ rfl)
      cases rest with
      | nil =>
        have hstand : mode.after text = .outside := hangled.back
        refine ⟨.inr ⟨hvalue, htag, fun b hb => ?_, fun _ => hstand⟩, trivial⟩
        rw [hstand] at hb
        cases hb
      | cons next more =>
        cases next with
        | gap g => exact absurd ((List.isChain_cons_cons.1 halternates).1 rfl) (by simp [Segment.isGap])
        | hit value w =>
          have hstand : mode.after text = .value := by
            obtain ⟨front, hw, -⟩ := (htags w (by simp)).ends
            have hback := hangled.back
            rw [List.flatMap_cons, Segment.text, hw] at hback
            exact hback.2.1 rfl
          have hnotag : ∀ b, mode.after text ≠ tag b := by simp [hstand]
          exact ⟨.inr ⟨hvalue, htag, hnotag, fun h => Bool.noConfusion h⟩,
            ih halternatesrest hnerest htagsrest hangled.back hnotag (.inr (by simp [Segment.isGap]))⟩

/-! ### Parts one behind another -/

/-- Between tags it makes no difference to the first gap whether a tag is in front of it. -/
theorem framed_outside {segments : List (Segment Unit)} (h : outside.Framed true segments)
    (afterTag : Bool) : outside.Framed afterTag segments := by
  cases segments with
  | nil => trivial
  | cons segment rest =>
    cases segment with
    | hit value w => exact h
    | gap text =>
      obtain ⟨⟨-, hfree⟩ | ⟨hmode, -⟩, hrest⟩ := h
      · exact ⟨.inl ⟨rfl, hfree⟩, hrest⟩
      · cases hmode

theorem not_mem_of_framed {segments : List (Segment Unit)} {afterTag : Bool}
    (h : outside.Framed afterTag (.gap text :: segments)) : '<' ∉ text := by
  obtain ⟨⟨-, hfree⟩ | ⟨hmode, -⟩, -⟩ := h
  · exact hfree
  · cases hmode

theorem FramedGap.of_last {afterTag beforeTag : Bool} (h : mode.FramedGap afterTag false text) :
    mode.FramedGap afterTag beforeTag text :=
  h.imp_right fun hframed => ⟨hframed.1, hframed.2.1, hframed.2.2.1, fun _ => hframed.2.2.2 rfl⟩

theorem framed_join {front back : List (Segment Unit)} {afterTag : Bool} (hfront : mode.Framed afterTag front)
    (hafter : mode.after (front.flatMap Segment.text) = .outside) (hback : outside.Framed true back) :
    mode.Framed afterTag (Segment.join front back) := by
  induction front, back using Segment.join.induct generalizing mode afterTag with
  | case1 back =>
    obtain rfl : mode = .outside := hafter
    exact framed_outside hback afterTag
  | case2 text more back =>
    have hfree := not_mem_of_framed hback
    have hstand : mode.after text = .outside := by simpa [Segment.text] using hafter
    have hboth : mode.after (text ++ more) = .outside := by
      rw [after_append, hstand, (read_outside hfree).2]
    refine ⟨?_, ?_⟩
    · refine hfront.1.imp ?_ ?_
      · exact fun hframed => ⟨hframed.1, List.not_mem_append hframed.2 hfree⟩
      · exact fun hframed => ⟨hframed.1, hframed.2.1, by simp [hboth], fun _ => hboth⟩
    · have hrest := hback.2
      rwa [(read_outside hfree).2, ← hboth] at hrest
  | case3 segment front back hnot ih =>
    rw [Segment.join_cons hnot]
    rw [List.flatMap_cons, after_append] at hafter
    cases segment with
    | hit value w => exact ih hfront hafter hback
    | gap text =>
      refine ⟨?_, ih hfront.2 hafter hback⟩
      cases front with
      | nil => exact hfront.1.of_last
      | cons next front =>
        have hne : (Segment.join (next :: front) back).isEmpty = false := by
          rw [Segment.isEmpty_join]
          rfl
        rw [hne]
        exact hfront.1

theorem settledGap_append {more : Text} {beforeTag : Bool} (hafter : mode.after text = .outside)
    (hmore : '<' ∉ more) : mode.SettledGap beforeTag (text ++ more) ↔ mode.SettledGap beforeTag text := by
  have hboth : mode.after (text ++ more) = .outside := by
    rw [after_append, hafter, (read_outside hmore).2]
  have hhead : mode = .value → (text ++ more).head? = text.head? := by
    rintro rfl
    cases text with
    | nil => cases hafter
    | cons c text => rfl
  rw [SettledGap, SettledGap, hboth, hafter, spaced_append (by simp [hafter]), hafter,
    and_iff_left (spaced_outside hmore)]
  refine and_congr_right' (and_congr ⟨fun h hmode => ?_, fun h hmode => ?_⟩ ?_)
  · rw [← hhead hmode]
    exact h hmode
  · rw [hhead hmode]
    exact h hmode
  · exact iff_of_true (fun h => Mode.noConfusion h) fun h => Mode.noConfusion h

theorem settled_join {front back : List (Segment Unit)} {afterTag : Bool} (hfront : mode.Framed afterTag front)
    (hafter : mode.after (front.flatMap Segment.text) = .outside) (hback : outside.Framed true back)
    (halternates : Segment.Alternates back) :
    mode.Settled true (Segment.join front back) ↔
      mode.Settled (back.all Segment.isGap) front ∧ outside.Settled true back := by
  induction front, back using Segment.join.induct generalizing mode afterTag with
  | case1 back =>
    obtain rfl : mode = .outside := hafter
    exact (and_iff_right trivial).symm
  | case2 text more back =>
    have hfree := not_mem_of_framed hback
    have hstand : mode.after text = .outside := by simpa [Segment.text] using hafter
    have hlast : (!back.isEmpty || !true) = (!([] : List (Segment Unit)).isEmpty ||
        !(Segment.gap more :: back).all Segment.isGap) := by
      cases back with
      | nil => rfl
      | cons next back =>
        have hnext : next.isGap = false := (List.isChain_cons_cons.1 halternates).1 rfl
        rw [List.all_cons, List.all_cons, hnext, Bool.false_and, Bool.and_false]
        rfl
    have hsettled : outside.SettledGap (!back.isEmpty || !true) more := by
      refine ⟨spaced_outside hfree, fun h => Mode.noConfusion h, fun h => ?_⟩
      rw [(read_outside hfree).2] at h
      cases h
    simp only [Segment.join, Settled]
    rw [settledGap_append hstand hfree, hlast, after_append, hstand, (read_outside hfree).2, ← hlast,
      and_true, and_iff_right hsettled]
  | case3 segment front back hnot ih =>
    rw [Segment.join_cons hnot]
    rw [List.flatMap_cons, after_append] at hafter
    cases segment with
    | hit value w => exact ih hfront hafter hback halternates
    | gap text =>
      have hlast : (!(Segment.join front back).isEmpty || !true) =
          (!front.isEmpty || !back.all Segment.isGap) := by
        rw [Segment.isEmpty_join]
        cases front with
        | cons next front => rfl
        | nil =>
          cases back with
          | nil => rfl
          | cons next back =>
            cases next with
            | hit value w => rfl
            | gap more => exact (hnot text more back rfl rfl rfl).elim
      rw [Settled, Settled, hlast, ih hfront.2 hafter hback halternates, and_assoc]

end Mode

/-! ### A tag by itself -/

namespace Attribute

theorem read_source (attr : Attribute) : (Mode.tag false).read attr.source = attr.plain ∧
    (Mode.tag false).after attr.source = .tag false := by
  obtain ⟨b, hb⟩ := Mode.after_tag attr.label_free false
  obtain ⟨hread, hafter⟩ := Mode.read_value attr.value_free
  rw [source, plain, Mode.read_append, Mode.after_append, Mode.read_tag attr.label_free, hb]
  have hblank : isBlank '"' = false := by decide
  simp [Mode.take, Mode.next, hread, hafter, hblank]

theorem read_sources (attributes : List Attribute) :
    (Mode.tag false).read (attributes.flatMap source) = attributes.flatMap plain ∧
      (Mode.tag false).after (attributes.flatMap source) = .tag false := by
  induction attributes with
  | nil => exact ⟨rfl, rfl⟩
  | cons attr attributes ih =>
    rw [List.flatMap_cons, List.flatMap_cons, Mode.read_append, Mode.after_append, attr.read_source.1,
      attr.read_source.2, ih.1, ih.2]
    exact ⟨rfl, rfl⟩

theorem angled_sources (attributes : List Attribute) (h : ∀ b, (Mode.tag b).Angled rest) (b : Bool) :
    (Mode.tag b).Angled (attributes.flatMap source ++ rest) := by
  induction attributes generalizing b with
  | nil => exact h b
  | cons attr attributes ih =>
    rw [List.flatMap_cons, source]
    simp only [List.append_assoc, List.cons_append, List.nil_append]
    refine Mode.angled_tag attr.label_free ?_ b
    exact fun b => ⟨nofun, fun h => absurd h (by decide), Mode.angled_value attr.value_free (ih false)⟩

end Attribute

namespace Tag

theorem head_free (tag : Tag) : ∀ c ∈ tag.head, isBlank c = false ∧ c ≠ '<' ∧ c ≠ '>' ∧ c ≠ '"' := by
  intro c hc
  rcases List.mem_append.1 hc with hc | hc
  · split at hc
    · obtain rfl := List.mem_singleton.1 hc
      decide
    · cases hc
  · have hname := tag.isName.continues c hc
    refine ⟨?_, ?_, ?_, ?_⟩
    · exact Bool.eq_false_iff.2 fun hb => by rw [Markup.continuesName_of_isBlank hb] at hname; cases hname
    all_goals
      rintro rfl
      revert hname
      decide

theorem head_plain (tag : Tag) : (Mode.tag false).read tag.head = tag.head ∧
    (Mode.tag false).after tag.head = .tag false := by
  have hfree := tag.head_free
  generalize tag.head = head at hfree ⊢
  induction head with
  | nil => exact ⟨rfl, rfl⟩
  | cons c cs ih =>
    obtain ⟨⟨hblank, -, hclose, hquote⟩, hrest⟩ := List.forall_mem_cons.1 hfree
    simpa [Mode.take, Mode.next, hblank, hclose, hquote] using ih hrest

theorem read_source (tag : Tag) : Mode.outside.read tag.source = tag.plain ∧
    Mode.outside.after tag.source = .outside := by
  obtain ⟨hread, hafter⟩ := tag.head_plain
  obtain ⟨hattrs, hbehind⟩ := Attribute.read_sources tag.attributes
  obtain ⟨b, hb⟩ := Mode.after_tag tag.ending_free false
  have hopen : Mode.outside.take '<' = ['<'] ∧ Mode.outside.next '<' = .tag false := by decide
  have hclose : (Mode.tag b).take '>' = ['>'] ∧ (Mode.tag b).next '>' = .outside := by
    cases b <;> decide
  rw [source, inside, plain]
  simp only [Mode.read_cons, Mode.read_append, Mode.read_nil, Mode.after_cons, Mode.after_append,
    Mode.after_nil, hopen, hread, hafter, hattrs, hbehind, hb, hclose, Mode.read_tag tag.ending_free]
  simp

theorem angled (tag : Tag) : (Mode.tag false).Angled (tag.head ++ (tag.inside ++ ['>'])) := by
  refine Mode.angled_tag (fun c hc => (tag.head_free c hc).2) (fun b => ?_) false
  rw [inside, List.append_assoc]
  refine Attribute.angled_sources tag.attributes (fun b => ?_) b
  refine Mode.angled_tag tag.ending_free ?_ b
  exact fun b => ⟨nofun, fun h => absurd h (by decide), rfl⟩

theorem isTag_front (tag : Tag) {front rest : Text} (hsplit : tag.inside ++ ['>'] = front ++ '>' :: rest)
    (hfree : '>' ∉ front) : IsTag ('<' :: (tag.head ++ (front ++ ['>']))) := by
  have hfront : front = [] ∨ front = ['/'] ∨ ∃ c ∈ front.head?, isBlank c = true := by
    cases hattrs : tag.attributes with
    | nil =>
      have hending : '>' ∉ tag.ending := fun hm => (tag.ending_free _ hm).2.1 rfl
      rw [inside, hattrs, List.flatMap_nil, List.nil_append] at hsplit
      rw [← (Text.first_unique hending hfree hsplit).1]
      exact tag.ending_head
    | cons attr attributes =>
      obtain ⟨c, hc, hblank⟩ := attr.label_head
      refine .inr (.inr ⟨c, ?_, hblank⟩)
      have hhead : (front ++ '>' :: rest).head? = some c := by
        rw [← hsplit, inside, hattrs, List.flatMap_cons, Attribute.source]
        cases hlabel : attr.label with
        | nil => rw [hlabel] at hc; cases hc
        | cons d label => rw [hlabel] at hc; exact hc
      cases front with
      | nil =>
        cases hhead
        revert hblank
        decide
      | cons d front => exact hhead
  refine ⟨if tag.slash then ['/'] else [], tag.name, front, ?_, tag.isName, hfree, hfront, ?_⟩
  · cases tag.slash
    · exact .inl rfl
    · exact .inr rfl
  · rw [head, List.append_assoc]

/-- The parts of a tag: what it is taken for, and the parts of the rest. -/
theorem parts_source (tag : Tag) {front rest : Text} (hsplit : tag.inside ++ ['>'] = front ++ '>' :: rest)
    (hfree : '>' ∉ front) :
    parts tag.source = .hit () ('<' :: (tag.head ++ (front ++ ['>']))) :: parts rest := by
  have hw := tag.isTag_front hsplit hfree
  have hsource : tag.source = '<' :: (tag.head ++ (front ++ ['>'])) ++ rest := by
    rw [source, hsplit]
    simp
  rw [hsource]
  exact Segment.ofText_hit hw.ne_nil (readTag_of_isTag hw rest)

theorem exists_front (tag : Tag) : ∃ front rest : Text,
    tag.inside ++ ['>'] = front ++ '>' :: rest ∧ '>' ∉ front :=
  List.eq_append_cons_of_mem (by simp)

theorem framed (tag : Tag) (afterTag : Bool) : Mode.outside.Framed afterTag (parts tag.source) := by
  obtain ⟨front, rest, hsplit, hfree⟩ := tag.exists_front
  have hangled : ((Mode.tag false).after (tag.head ++ (front ++ ['>']))).Angled rest := by
    have h := tag.angled
    rw [hsplit] at h
    refine Mode.Angled.back ?_
    simpa using h
  rw [tag.parts_source hsplit hfree, Mode.Framed]
  refine Mode.framed_of_angled (Segment.alternates_ofText readTag_consumes rest)
    (Segment.text_ne_nil readTag_consumes rest) (fun w hw => isTag_of_hit_mem hw) ?_
    (Mode.after_isTag (tag.isTag_front hsplit hfree) _) (.inl rfl)
  rw [parts, Segment.flatMap_text_ofText]
  exact hangled

theorem all_isGap_parts (tag : Tag) : (parts tag.source).all Segment.isGap = false := by
  obtain ⟨front, rest, hsplit, hfree⟩ := tag.exists_front
  rw [tag.parts_source hsplit hfree]
  rfl

theorem parts_append (tag : Tag) (rest : Text) :
    parts (tag.source ++ rest) = Segment.join (parts tag.source) (parts rest) := by
  refine Segment.ofText_append readTag_consumes fun t ht hs => readTag_append ?_ rest
  have hlast : tag.source.getLast? = some '>' := by
    rw [source, ← List.append_assoc, ← List.cons_append, List.getLast?_concat]
  obtain ⟨front, hfront⟩ := hs
  rw [← hfront, List.getLast?_append_of_ne_nil _ ht] at hlast
  exact List.mem_of_getLast? hlast

end Tag

/-! ### Settled tags -/

namespace Mode

theorem spaced_tag_iff (h : ∀ c ∈ text, c ≠ '<' ∧ c ≠ '>' ∧ c ≠ '"') (behindBlank : Bool) :
    (tag behindBlank).Spaced (text ++ rest) ↔ ((tag behindBlank).after text).Spaced rest := by
  induction text generalizing behindBlank with
  | nil => rfl
  | cons c text ih =>
    obtain ⟨⟨-, hclose, hquote⟩, hmore⟩ := List.forall_mem_cons.1 h
    have hblank : tag behindBlank = .value → isBlank c = true →
        c = ' ' ∧ ∀ d ∈ (text ++ rest).head?, isBlank d = false := fun hmode => Mode.noConfusion hmode
    rw [List.cons_append, Spaced, and_iff_right hblank, after_cons, next, if_neg hclose, if_neg hquote]
    exact ih hmore _

theorem spaced_value_iff (h : '"' ∉ text) : value.Spaced text ↔ text.collapse = text := by
  have hcollapse : '"' ∉ text.collapse := fun hm => h (Text.mem_of_mem_collapse (by decide) hm)
  rw [← read_collapse_eq_iff, (read_value h).1, (read_value hcollapse).1]

theorem spaced_value_append_iff (h : '"' ∉ text) :
    value.Spaced (text ++ '"' :: rest) ↔ text.collapse = text ∧ (tag false).Spaced rest := by
  have hquote : ∀ d ∈ ('"' :: rest).head?, isBlank d = false := by
    rintro d ⟨⟩
    decide
  rw [spaced_append fun _ => .inr hquote, (read_value h).2, spaced_value_iff h]
  exact and_congr_right' (and_iff_right fun _ hblank => absurd hblank (by decide))

end Mode

namespace Attribute

theorem not_mem_sources {attributes : List Attribute} {c : Char} (hc : c = '<' ∨ c = '>')
    (h : ∀ attr ∈ attributes, c ∉ attr.value) : c ∉ attributes.flatMap source := by
  intro hm
  obtain ⟨attr, hattr, hm⟩ := List.mem_flatMap.1 hm
  have hlabel : c ∉ attr.label := fun hm => by
    obtain ⟨hopen, hclose, -⟩ := attr.label_free c hm
    exact hc.elim hopen hclose
  have hquote : c ≠ '"' := by
    rcases hc with rfl | rfl <;> decide
  simp only [source, List.mem_append, List.mem_cons, List.not_mem_nil, or_false, hquote, false_or] at hm
  exact hm.elim hlabel (h attr hattr)

/-- The values of attributes are spaced if they are collapsed. -/
theorem spaced_sources (attributes : List Attribute) (hrest : ∀ b, (Mode.tag b).Spaced rest) (b : Bool) :
    (Mode.tag b).Spaced (attributes.flatMap source ++ rest) ↔
      ∀ attr ∈ attributes, attr.value.collapse = attr.value := by
  induction attributes generalizing b with
  | nil => exact iff_of_true (hrest b) nofun
  | cons attr attributes ih =>
    obtain ⟨behindBlank, hlabel⟩ := Mode.after_tag attr.label_free b
    rw [List.flatMap_cons, source]
    simp only [List.append_assoc, List.cons_append, List.nil_append]
    rw [Mode.spaced_tag_iff attr.label_free, hlabel, List.forall_mem_cons, ← ih false,
      ← Mode.spaced_value_append_iff attr.value_free]
    exact and_iff_right nofun

end Attribute

namespace Tag

variable {tag : Tag} {last : Bool}

theorem settled_of_free (h : ∀ attr ∈ tag.attributes, '>' ∉ attr.value) : tag.Settled last := by
  have hattrs := Attribute.not_mem_sources (.inr rfl) h
  have hending : '>' ∉ tag.ending := fun hm => (tag.ending_free _ hm).2.1 rfl
  have hsplit : tag.inside ++ ['>'] = tag.inside ++ '>' :: [] := rfl
  rw [Settled, tag.parts_source hsplit (List.not_mem_append hattrs hending)]
  trivial

/-- A tag that is taken to end in a value, and in whose values no tag can begin: the rest of that value and
the values behind it have to be collapsed already, and the rest does not begin with a blank where a tag
comes behind. -/
theorem settled_iff {before behind : List Attribute} {attr : Attribute} {front back : Text}
    (hattrs : tag.attributes = before ++ attr :: behind) (hbefore : ∀ a ∈ before, '>' ∉ a.value)
    (hvalue : attr.value = front ++ '>' :: back) (hfront : '>' ∉ front)
    (hopen : ∀ a ∈ tag.attributes, '<' ∉ a.value) :
    tag.Settled last ↔ back.collapse = back ∧ (∀ a ∈ behind, a.value.collapse = a.value) ∧
      (last = false → ∀ c ∈ back.head?, isBlank c = false) := by
  have hsplit : tag.inside ++ ['>'] = (before.flatMap Attribute.source ++ (attr.label ++ '"' :: front)) ++
      '>' :: (back ++ '"' :: (behind.flatMap Attribute.source ++ (tag.ending ++ ['>']))) := by
    rw [inside, hattrs, List.flatMap_append, List.flatMap_cons, Attribute.source, hvalue]
    simp
  have hquote : '"' ∉ front ∧ '"' ∉ back := by
    have h := attr.value_free
    simpa [hvalue] using h
  have hfree : '>' ∉ before.flatMap Attribute.source ++ (attr.label ++ '"' :: front) := by
    have hlabel : '>' ∉ attr.label := fun hm => (attr.label_free _ hm).2.1 rfl
    have hbefore := Attribute.not_mem_sources (.inr rfl) hbefore
    simp [hbefore, hlabel, hfront]
  have hstand : (Mode.tag false).after (tag.head ++
      (before.flatMap Attribute.source ++ (attr.label ++ '"' :: front) ++ ['>'])) = .value := by
    obtain ⟨behindBlank, hlabel⟩ := Mode.after_tag attr.label_free false
    have hafter := (Mode.read_value hquote.1).2
    have hopening : (Mode.tag behindBlank).next '"' = .value := rfl
    simp only [Mode.after_append, tag.head_plain.2, (Attribute.read_sources before).2, hlabel,
      Mode.after_cons, hopening, hafter, Mode.after_nil]
    rfl
  have hrest : '<' ∉ back ++ '"' :: (behind.flatMap Attribute.source ++ (tag.ending ++ ['>'])) := by
    have hback : '<' ∉ back := fun hm => hopen attr (by simp [hattrs]) (by simp [hvalue, hm])
    have hbehind := Attribute.not_mem_sources (.inl rfl) fun a (ha : a ∈ behind) => hopen a (by simp [hattrs, ha])
    have hending : '<' ∉ tag.ending := fun hm => (tag.ending_free _ hm).1 rfl
    simp [hback, hbehind, hending]
  have hend : ∀ b, (Mode.tag b).Spaced (tag.ending ++ ['>']) := by
    intro b
    obtain ⟨behindBlank, h⟩ := Mode.after_tag tag.ending_free b
    rw [Mode.spaced_tag_iff tag.ending_free, h]
    exact ⟨nofun, trivial⟩
  have hstop : Mode.value.after
      (back ++ '"' :: (behind.flatMap Attribute.source ++ (tag.ending ++ ['>']))) = .outside := by
    have h := tag.read_source.2
    rw [source, hsplit, Mode.after_cons] at h
    change (Mode.tag false).after _ = _ at h
    rw [← hstand, ← Mode.after_append]
    simpa using h
  have hhead : (∀ c ∈ (back ++ '"' :: (behind.flatMap Attribute.source ++ (tag.ending ++ ['>']))).head?,
      isBlank c = false) ↔ ∀ c ∈ back.head?, isBlank c = false := by
    cases back with
    | nil => exact iff_of_true (by rintro c ⟨⟩; decide) nofun
    | cons c back => rfl
  rw [Settled, tag.parts_source hsplit hfree, Mode.Settled, Mode.after_cons]
  change (Mode.after (.tag false) _).Settled last _ ↔ _
  rw [hstand, parts, Segment.ofText_of_not_mem readTag_beginsWith hrest (by simp), Mode.Settled,
    Mode.Settled, and_true, Mode.SettledGap, Mode.spaced_value_append_iff hquote.2,
    Attribute.spaced_sources behind hend, hstop, hhead, and_assoc]
  simp

end Tag

/-! ### Documents -/

theorem parts_free (h : '<' ∉ text) (rest : Text) :
    parts (text ++ rest) = Segment.join (parts text) (parts rest) :=
  Segment.ofText_append readTag_consumes (Segment.Seam.of_not_mem readTag_beginsWith h rest)

theorem parts_of_free (h : '<' ∉ text) : parts text = [] ∨ parts text = [.gap text] := by
  cases text with
  | nil => exact .inl rfl
  | cons c text => exact .inr (Segment.ofText_of_not_mem readTag_beginsWith h (List.cons_ne_nil _ _))

theorem framed_free (h : '<' ∉ text) : Mode.outside.Framed true (parts text) := by
  rcases parts_of_free h with hparts | hparts <;> rw [hparts]
  · trivial
  · exact ⟨.inl ⟨rfl, h⟩, trivial⟩

theorem settled_free (h : '<' ∉ text) (last : Bool) : Mode.outside.Settled last (parts text) := by
  rcases parts_of_free h with hparts | hparts <;> rw [hparts]
  · trivial
  · refine ⟨⟨Mode.spaced_outside h, nofun, fun hvalue => ?_⟩, trivial⟩
    rw [(Mode.read_outside h).2] at hvalue
    cases hvalue

theorem all_isGap_free (h : '<' ∉ text) : (parts text).all Segment.isGap = true := by
  rcases parts_of_free h with hparts | hparts <;> rw [hparts] <;> rfl

theorem after_parts_free (h : '<' ∉ text) :
    Mode.outside.after ((parts text).flatMap Segment.text) = .outside := by
  rw [parts, Segment.flatMap_text_ofText, (Mode.read_outside h).2]

theorem after_parts_tag (tag : Tag) :
    Mode.outside.after ((parts tag.source).flatMap Segment.text) = .outside := by
  rw [parts, Segment.flatMap_text_ofText, tag.read_source.2]

theorem alternates_parts (text : Text) : Segment.Alternates (parts text) :=
  Segment.alternates_ofText readTag_consumes text

/-- The parts of text in front of framed parts, put together. -/
theorem framed_free_append (h : '<' ∉ text) (hrest : Mode.outside.Framed true (parts rest)) :
    Mode.outside.Framed true (parts (text ++ rest)) ∧
      (Mode.outside.Settled true (parts (text ++ rest)) ↔ Mode.outside.Settled true (parts rest)) ∧
      (parts (text ++ rest)).all Segment.isGap = (parts rest).all Segment.isGap := by
  rw [parts_free h]
  refine ⟨Mode.framed_join (framed_free h) (after_parts_free h) hrest, ?_, ?_⟩
  · rw [Mode.settled_join (framed_free h) (after_parts_free h) hrest (alternates_parts rest),
      and_iff_right (settled_free h _)]
  · rw [Segment.all_isGap_join, all_isGap_free h, Bool.true_and]

/-- Tags with text behind them, part by part: whether one of them is settled depends on nothing around it
but on whether a tag comes behind it. -/
theorem framed_pieces (pieces : List Piece) :
    Mode.outside.Framed true (parts (pieces.flatMap Piece.source)) ∧
      (Mode.outside.Settled true (parts (pieces.flatMap Piece.source)) ↔ SettledPieces pieces) ∧
      (parts (pieces.flatMap Piece.source)).all Segment.isGap = pieces.isEmpty := by
  induction pieces with
  | nil => exact ⟨trivial, iff_of_true trivial trivial, rfl⟩
  | cons piece pieces ih =>
    obtain ⟨hframed, hsettled, hgaps⟩ := ih
    obtain ⟨hframed, hsettled', hgaps'⟩ := framed_free_append piece.behind_free hframed
    rw [List.flatMap_cons, Piece.source, List.append_assoc, piece.tag.parts_append]
    refine ⟨Mode.framed_join (piece.tag.framed true) (after_parts_tag _) hframed, ?_, ?_⟩
    · rw [Mode.settled_join (piece.tag.framed true) (after_parts_tag _) hframed (alternates_parts _),
        hsettled', hsettled, hgaps', hgaps]
      rfl
    · rw [Segment.all_isGap_join, piece.tag.all_isGap_parts]
      rfl

namespace Document

theorem read_source (document : Document) : readTags document.source = document.plain := by
  have hpieces : ∀ pieces : List Piece, Mode.outside.read (pieces.flatMap Piece.source) =
      pieces.flatMap fun piece => piece.tag.plain := by
    intro pieces
    induction pieces with
    | nil => rfl
    | cons piece pieces ih =>
      obtain ⟨hread, hafter⟩ := piece.tag.read_source
      obtain ⟨hbehind, hstand⟩ := Mode.read_outside piece.behind_free
      rw [List.flatMap_cons, List.flatMap_cons, Piece.source, Mode.read_append, Mode.read_append,
        Mode.after_append, hread, hafter, hbehind, hstand, ih, List.append_nil]
  obtain ⟨hfront, hstand⟩ := Mode.read_outside document.front_free
  rw [readTags, source, Mode.read_append, hfront, hstand, hpieces, List.nil_append]
  rfl

/-- **Where white space is reduced, tags come through if they are settled.** The tags that are read of the
reduced document, with quotes known, are those of the document with their values to the letter exactly if
every tag that is taken to end in a value is settled. -/
theorem minifySpace_reads_iff (document : Document) :
    readTags (minifySpace document.source) = document.plain ↔ SettledPieces document.pieces := by
  obtain ⟨hframed, hsettled, -⟩ := framed_pieces document.pieces
  obtain ⟨hframed, hfront, -⟩ := framed_free_append document.front_free hframed
  have hread := Mode.read_minifyParts_eq_iff (Mode.framed_outside hframed false)
  rw [parts, Segment.flatMap_text_ofText] at hread
  rw [← document.read_source, ← hsettled, ← hfront]
  exact hread

/-- The line break between two tags. -/
def lineBreak : Piece where
  tag :=
    { slash := false
      name := "br".toList
      isName := by decide
      attributes := []
      ending := []
      ending_head := .inl rfl
      ending_free := by decide }
  behind := []
  behind_free := by decide

/-- A comparison with blanks in front of its sign only. -/
def condition : Attribute where
  label := "  *ngIf=".toList
  label_head := ⟨' ', by decide, by decide⟩
  label_free := by decide
  value := "a  >b".toList
  value_free := by decide

/-- A title of two words. -/
def title : Attribute where
  label := "\n  title=".toList
  label_head := ⟨'\n', by decide, by decide⟩
  label_free := by decide
  value := "x y".toList
  value_free := by decide

/-- A tag with both, and blanks around it. -/
def tidy : Document where
  front := []
  front_free := by decide
  pieces :=
    [{ tag :=
        { slash := false
          name := "p".toList
          isName := by decide
          attributes := [condition, title]
          ending := []
          ending_head := .inl rfl
          ending_free := by decide }
       behind := "\n  ".toList
       behind_free := by decide },
     lineBreak]

/-- The blanks in front of the sign stay, and those around the values are reduced. -/
theorem minifySpace_reads_tidy :
    tidy.source = "<p  *ngIf=\"a  >b\"\n  title=\"x y\">\n  <br>".toList ∧
      readTags (minifySpace tidy.source) = "<p *ngIf=\"a  >b\" title=\"x y\"><br>".toList := by
  have hattrs : [condition, title] = [] ++ condition :: [title] := rfl
  have hvalue : condition.value = "a  ".toList ++ '>' :: ['b'] := rfl
  have hhead : ∀ c ∈ (['b'] : Text).head?, isBlank c = false := by
    rintro c ⟨⟩
    rfl
  have hsettled : SettledPieces tidy.pieces :=
    ⟨(Tag.settled_iff hattrs (by simp) hvalue (by decide) (by decide)).2
        ⟨rfl, by decide, fun _ => hhead⟩,
      Tag.settled_of_free nofun, trivial⟩
  exact ⟨by decide, ((minifySpace_reads_iff tidy).2 hsettled).trans (by decide)⟩

/-- A comparison in a value, and a tag behind it. -/
def comparison : Document where
  front := []
  front_free := by decide
  pieces :=
    [{ tag :=
        { slash := false
          name := "p".toList
          isName := by decide
          attributes :=
            [{ label := " *ngIf=".toList
               label_head := ⟨' ', by decide, by decide⟩
               label_free := by decide
               value := "a > b".toList
               value_free := by decide }]
          ending := []
          ending_head := .inl rfl
          ending_free := by decide }
       behind := []
       behind_free := by decide },
     lineBreak]

/-- The blank behind the comparison is lost. -/
theorem not_minifySpace_reads :
    comparison.source = "<p *ngIf=\"a > b\"><br>".toList ∧
      minifySpace comparison.source = "<p *ngIf=\"a >b\"><br>".toList ∧
      readTags (minifySpace comparison.source) ≠ comparison.plain := by
  decide +kernel

end Document

end FlowTemplate.Minify
