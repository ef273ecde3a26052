/-
Which keywords the output of a pass mentions. The markup of a piece ends where no keyword can go on, and
without an at sign in its headers it mentions what its contents mention (`Piece.sealed_markup`). So a
pass leaves a mention of its own keyword exactly where its outline says (`Outline.mentions_markup_iff`),
and the pass over chains keeps the mentions of the other keyword as they are in its text
(`Outline.mentions_loops_iff`).
-/
import FlowTemplate.Proofs.Attribute
import FlowTemplate.Proofs.Outline.Run

namespace FlowTemplate

/-! ## Sealed texts -/

/-- A text that mentions a keyword if `mentions` holds, and that no keyword goes on behind. -/
def Text.Sealed (keyword text : Text) (mentions : Prop) : Prop :=
  ∀ rest, Mentions (text ++ rest) keyword ↔ mentions ∨ Mentions rest keyword

namespace Text.Sealed

variable {keyword a b : Text} {p q : Prop}

theorem of_silent (h : Pass.Silent keyword a) : Sealed keyword a False := fun rest => by
  rw [mentions_silent_append_iff h, false_or]

theorem of_free (h : '@' ∉ a) : Sealed keyword a False := of_silent (.of_not_mem h)

theorem append (ha : Sealed keyword a p) (hb : Sealed keyword b q) : Sealed keyword (a ++ b) (p ∨ q) :=
  fun rest => by rw [List.append_assoc, ha, hb, or_assoc]

theorem free_append (ha : '@' ∉ a) (hb : Sealed keyword b q) : Sealed keyword (a ++ b) q := by
  simpa using (of_free ha).append hb

theorem of_free_append (ha : '@' ∉ a) (h : Sealed keyword (a ++ b) p) : Sealed keyword b p := fun rest => by
  rw [← h rest, List.append_assoc, mentions_silent_append_iff (.of_not_mem ha)]

theorem congr (h : Sealed keyword a p) (hpq : p ↔ q) : Sealed keyword a q := fun rest => by
  rw [h, hpq]

/-- Behind any text a character that goes on with no name, and is no at sign, seals it. -/
theorem of_closing (hk : keyword.IsKeyword) (text : Text) {c : Char} {closing : Text}
    (hc : continuesName c = false) (hfree : '@' ∉ c :: closing) :
    Sealed keyword (text ++ c :: closing) (text.Mentions keyword) := fun rest => by
  rw [List.append_assoc, mentions_append_iff hk (by simp [nameEnds, hc]),
    mentions_silent_append_iff (.of_not_mem hfree)]

end Text.Sealed

open Text

variable {keyword : Text}

/-! ## Headers and the markup made of them -/

theorem Condition.free_ofHeader {header : Text} (h : '@' ∉ header) :
    '@' ∉ (ofHeader header).expression ∧ ∀ name ∈ (ofHeader header).alias?, '@' ∉ name := by
  have hwhole : '@' ∉ header.trim := fun hm => h (mem_of_mem_trim hm)
  rw [ofHeader]
  split
  · exact ⟨hwhole, fun _ hname => absurd hname (Option.not_mem_none _)⟩
  next expression clause hcut =>
    split
    next c cs name hname =>
      rw [cutLast?_eq_some hcut] at hwhole
      obtain ⟨-, -, -, hvalid, -⟩ := aliasClause?_eq_some hname
      refine ⟨fun hm => hwhole (List.mem_append_left _ (mem_of_mem_trim hm)), ?_⟩
      rintro _ ⟨⟩
      exact not_mem_of_isIdentifier hvalid (by decide)
    · exact ⟨hwhole, fun _ hname => absurd hname (Option.not_mem_none _)⟩

theorem Text.not_mem_cut {c d : Char} {text : Text} (h : d ∉ text) :
    d ∉ (cut c text).1 ∧ d ∉ ((cut c text).2).getD [] := by
  induction text with
  | nil => exact ⟨List.not_mem_nil, List.not_mem_nil⟩
  | cons x xs ih =>
    simp only [List.mem_cons, not_or] at h
    rw [cut]
    split
    · exact ⟨List.not_mem_nil, h.2⟩
    · simp only [List.mem_cons, not_or]
      exact ⟨⟨h.1, (ih h.2).1⟩, (ih h.2).2⟩

namespace Loop

theorem free_clause? {clause item iterable : Text} (h : clause? clause = some (item, iterable))
    (hfree : '@' ∉ clause) : '@' ∉ item ∧ '@' ∉ iterable := by
  obtain ⟨hitem, hsuffix, -⟩ := clause?_eq_some h
  exact ⟨not_mem_of_isIdentifier hitem (by decide), fun hm => hfree (hsuffix.mem hm)⟩

theorem free_trackOf {rest : Text} (hfree : '@' ∉ rest) : ∀ key ∈ trackOf rest, '@' ∉ key := by
  intro key hkey
  obtain ⟨found, hsuffix, -, rfl⟩ := exists_of_trackOf hkey
  exact fun hm => hfree (mem_of_mem_trim (hsuffix.mem (mem_of_mem_trim hm)))

theorem free_loopExpression {header content : Text} {loop : Loop}
    (h : ofHeader? header content = some loop) (hfree : '@' ∉ header) :
    '@' ∉ Container.loopExpression loop := by
  obtain ⟨⟨item, iterable⟩, hclause, rfl⟩ := Option.map_eq_some_iff.1 h
  have htrim : '@' ∉ header.trim := fun hm => hfree (mem_of_mem_trim hm)
  obtain ⟨hfirst, hsecond⟩ := not_mem_cut (c := ';') htrim
  obtain ⟨hitem, hiterable⟩ := free_clause? hclause fun hm => hfirst (mem_of_mem_trim hm)
  have htrack := free_trackOf hsecond
  rw [Container.loopExpression_eq _ (trackOf_ne_nil _)]
  simp only [List.mem_append, not_or]
  refine ⟨⟨⟨⟨by decide, hitem⟩, by decide⟩, fun hm => hiterable (mem_of_mem_trim hm)⟩, ?_⟩
  cases hkey : trackOf ((header.trim.cut ';').2.getD []) with
  | none => exact List.not_mem_nil
  | some key => exact List.not_mem_append (by decide) (htrack key hkey)

end Loop

/-! ## Containers -/

namespace Container

/-- A container mentions what its content does. -/
theorem sealed_render (hk : keyword.IsKeyword) {tag directive expression : Text} (htag : '@' ∉ tag)
    (hdirective : '@' ∉ directive) (hexpression : '@' ∉ expression) (content : Text) :
    Sealed keyword (render tag directive expression content) (content.Mentions keyword) := by
  have hopening : '@' ∉ ['<'] ++ tag ++ [' '] ++ directive ++ ['=', '"'] ++ expression ++ ['"', '>'] := by
    simp [htag, hdirective, hexpression]
  have hclosing : '@' ∉ '<' :: (['/'] ++ tag ++ ['>']) := by simp [htag]
  have := Sealed.free_append hopening (.of_closing hk content (by decide) hclosing)
  simpa [render] using this

theorem sealed_ofBranch (hk : keyword.IsKeyword) {tag guard : Text} {branch : Branch} (htag : '@' ∉ tag)
    (hguard : '@' ∉ guard) (halias : ∀ name ∈ branch.alias?, '@' ∉ name) :
    Sealed keyword (ofBranch tag branch guard) (branch.content.Mentions keyword) := by
  refine sealed_render hk htag (by decide) ?_ _
  unfold binding
  split
  next c cs hname => exact List.not_mem_append (List.not_mem_append hguard (by decide)) (halias _ hname)
  · exact hguard

/-- The containers of a chain mention what the contents of its branches do. -/
theorem sealed_ofChain (hk : keyword.IsKeyword) {tag : Text} (htag : '@' ∉ tag) {chain : List Branch}
    (hchain : ∀ branch ∈ chain, (∀ condition ∈ branch.condition?, '@' ∉ condition) ∧
      ∀ name ∈ branch.alias?, '@' ∉ name) :
    Sealed keyword (ofChain tag chain) (∃ branch ∈ chain, branch.content.Mentions keyword) := by
  -- Each container on a line of its own, with guards that begin with denials already made.
  have hlines : ∀ denied : Text, '@' ∉ denied →
      Sealed keyword ((List.zipWith (ofBranch tag) chain (Guard.ofChainFrom denied chain)).flatMap
        (['\n'] ++ ·)) (∃ branch ∈ chain, branch.content.Mentions keyword) := by
    induction chain with
    | nil => exact fun _ _ => (Sealed.of_free List.not_mem_nil).congr (by simp)
    | cons branch rest ih =>
      intro denied hdenied
      obtain ⟨⟨hcondition, halias⟩, hrest⟩ := List.forall_mem_cons.1 hchain
      have hconjoin : ∀ {right : Text}, '@' ∉ right → '@' ∉ Guard.conjoin denied right := by
        intro right hright
        unfold Guard.conjoin
        split
        · exact hright
        · exact List.not_mem_append (List.not_mem_append hdenied (by decide)) hright
      obtain ⟨guard, next, hguard, hnext, heq⟩ : ∃ guard next : Text, '@' ∉ guard ∧ '@' ∉ next ∧
          Guard.ofChainFrom denied (branch :: rest) = guard :: Guard.ofChainFrom next rest := by
        rw [Guard.ofChainFrom]
        cases hown : branch.condition? with
        | none => exact ⟨denied, denied, hdenied, hdenied, rfl⟩
        | some condition =>
          have hfree := hcondition condition hown
          exact ⟨_, _, hconjoin hfree, hconjoin (List.not_mem_append
            (List.not_mem_append (by decide) hfree) (by decide)), rfl⟩
      rw [heq, List.zipWith_cons_cons, List.flatMap_cons]
      refine ((Sealed.free_append (by decide) (sealed_ofBranch hk htag hguard halias)).append
        (ih hrest next hnext)).congr ?_
      simp
  rw [ofChain, Guard.ofChain]
  cases hparts : List.zipWith (ofBranch tag) chain (Guard.ofChainFrom [] chain) with
  | nil =>
    have := hlines [] List.not_mem_nil
    rwa [hparts] at this
  | cons first parts =>
    have := hlines [] List.not_mem_nil
    rw [hparts, List.flatMap_cons, List.append_assoc] at this
    rw [joinWith_cons]
    exact Sealed.of_free_append (by decide) this

end Container

namespace Piece

variable {construct : Construct}

/-- The markup for a piece mentions what its contents are compiled to. -/
theorem sealed_markup (hk : keyword.IsKeyword) {tag : Text} (htag : '@' ∉ tag) (piece : Piece construct)
    (hfree : ∀ header ∈ piece.headers, '@' ∉ header) (compile : Text → Text) :
    Sealed keyword (piece.markup tag compile)
      (∃ content ∈ piece.contents, (compile content).Mentions keyword) := by
  cases piece with
  | loop groups found read =>
    have hexpression := Loop.free_loopExpression read (hfree _ (List.mem_singleton.2 rfl))
    exact (Container.sealed_render hk htag (by decide) hexpression _).congr
      (by simp only [contents, List.mem_singleton, exists_eq_left])
  | chain arms broken =>
    refine (Container.sealed_ofChain hk htag ?_).congr ?_
    · intro branch hbranch
      obtain ⟨arm, harm, rfl⟩ := List.mem_map.1 hbranch
      obtain ⟨header?, body⟩ := arm
      cases header? with
      | none =>
        exact ⟨fun _ h => (Option.not_mem_none _ h).elim, fun _ h => (Option.not_mem_none _ h).elim⟩
      | some header =>
        have hheader : '@' ∉ header.inside :=
          hfree _ (List.mem_filterMap.2 ⟨_, harm, rfl⟩)
        obtain ⟨hexpression, halias⟩ := Condition.free_ofHeader hheader
        refine ⟨?_, halias⟩
        rintro _ ⟨⟩
        exact hexpression
    · simp only [contents, List.mem_map, exists_exists_and_eq_and]

end Piece

/-- The markup for a piece that was read begins with a tag. -/
theorem Construct.nameEnds_markup {construct : Construct} {groups : Groups} {back left : Text}
    {piece : Piece construct} (h : construct.read groups back = some (piece, left)) (tag : Text)
    (compile : Text → Text) (rest : Text) : nameEnds (piece.markup tag compile ++ rest) = true := by
  cases construct with
  | loops =>
    obtain ⟨loop, hloop, rfl, -⟩ := readLoop_eq_some h
    rfl
  | chains =>
    cases h
    rw [Piece.markup, List.map_cons, Container.ofChain_cons]
    rfl

/-! ## The keyword of the pass itself -/

namespace Outline

variable {construct : Construct} {text tag : Text}

/-- Where no name goes on at the front of a text, none does at the front of its markup. -/
theorem nameEnds_markup (outline : Outline construct text) (tag : Text) (h : nameEnds text = true) :
    nameEnds (outline.markup tag) = true := by
  have hfront : ∀ {before after more : Text},
      Text.cutKeyword? construct.keyword text = some (before, after) → nameEnds more = true →
      nameEnds (before ++ more) = true := by
    intro before after more hcut hmore
    rw [((cutKeyword?_eq_some_iff construct.isKeyword).1 hcut).1] at h
    exact nameEnds_append (nameEnds_of_append h) hmore
  cases outline with
  | plain cut => exact h
  | stopped cut groups => exact h
  | skipped cut groups opens rest => exact hfront cut rfl
  | rejected cut block piece rest => exact hfront cut rfl
  | compiled cut block read contents rest =>
    exact hfront cut (Construct.nameEnds_markup read tag _ _)

theorem mentions_of_keyword {keyword before rest : Text} (h : nameEnds rest = true) :
    Mentions (before ++ ('@' :: keyword ++ rest)) keyword := ⟨before, rest, rfl, h⟩

/-- **What a pass leaves of its keyword.** The output of a pass mentions the keyword if and only if a
keyword was left as text, at some depth. -/
theorem mentions_markup_iff (htag : '@' ∉ tag) (outline : Outline construct text)
    (hfree : ∀ header ∈ outline.headers, '@' ∉ header) :
    (outline.markup tag).Mentions construct.keyword ↔ outline.Leaves := by
  have hk := construct.isKeyword
  induction outline with
  | plain cut => exact iff_of_false (cutKeyword?_eq_none_iff.1 cut) id
  | stopped cut groups =>
    obtain ⟨htext, hends, -⟩ := (cutKeyword?_eq_some_iff hk).1 cut
    exact iff_of_true ⟨_, _, htext, hends⟩ trivial
  | skipped cut groups opens rest =>
    obtain ⟨-, hends, -⟩ := (cutKeyword?_eq_some_iff hk).1 cut
    exact iff_of_true (mentions_of_keyword (rest.nameEnds_markup tag hends)) trivial
  | @rejected text before after back groups cut block piece rest =>
    obtain ⟨-, hends, -⟩ := (cutKeyword?_eq_some_iff hk).1 cut
    rw [Groups.read_eq_ok_iff.1 block] at hends
    have hsource : groups.source ≠ [] := by simp [Groups.source, Group.source]
    refine iff_of_true (mentions_of_keyword ?_) trivial
    rwa [nameEnds_append_of_ne_nil hsource] at hends ⊢
  | @compiled text before after back left groups piece cut block read contents rest ihContents ih =>
    obtain ⟨-, -, hbefore⟩ := (cutKeyword?_eq_some_iff hk).1 cut
    simp only [headers, List.mem_append, or_imp, forall_and] at hfree
    obtain ⟨hpiece, hcontents, hrest⟩ := hfree
    rw [markup, mentions_append_iff hk (Construct.nameEnds_markup read tag _ _),
      or_iff_right hbefore, piece.sealed_markup hk htag hpiece, Leaves]
    refine or_congr (exists_congr fun content => ?_) (ih hrest)
    constructor
    · rintro ⟨hmem, hmention⟩
      rw [onMembers_of_mem _ hmem] at hmention
      refine ⟨hmem, (ihContents content hmem fun header hheader => ?_).1 hmention⟩
      exact hcontents header (List.mem_flatMap.2 ⟨content, hmem, by rwa [onMembers_of_mem _ hmem]⟩)
    · rintro ⟨hmem, hleaves⟩
      refine ⟨hmem, ?_⟩
      rw [onMembers_of_mem _ hmem]
      refine (ihContents content hmem fun header hheader => ?_).2 hleaves
      exact hcontents header (List.mem_flatMap.2 ⟨content, hmem, by rwa [onMembers_of_mem _ hmem]⟩)

end Outline

/-! ## The keyword of the other pass -/

theorem Text.mentions_trimStart_iff (text : Text) :
    text.trimStart.Mentions keyword ↔ text.Mentions keyword := by
  obtain ⟨blanks, hblanks, htext⟩ := text.exists_blank_append_trimStart
  conv_rhs => rw [htext]
  exact (mentions_silent_append_iff (.of_not_mem (hblanks.not_mem (by decide)))).symm

theorem Group.sealed_source (hk : keyword.IsKeyword) {kind : Delimiter} (group : Group kind) :
    Sealed keyword group.source (group.inside.Mentions keyword) := by
  have hopening : '@' ∉ group.blanks.text ++ [kind.opener] :=
    List.not_mem_append (group.blanks.blank.not_mem (by decide)) (by cases kind <;> decide)
  have hcloser : continuesName kind.closer = false := by cases kind <;> decide
  have hfree : '@' ∉ kind.closer :: ([] : Text) := by cases kind <;> decide
  have := Sealed.free_append hopening (.of_closing hk group.inside hcloser hfree)
  simpa [Group.source] using this

namespace Arm

/-- An arm without an at sign in its header mentions what its content does. -/
theorem sealed_source (hk : keyword.IsKeyword) (arm : Arm)
    (hfree : ∀ header ∈ arm.header?, '@' ∉ header.inside) :
    Sealed keyword arm.source (arm.content.Mentions keyword) := by
  have hbody := (arm.body.sealed_source hk).congr (mentions_trimStart_iff arm.body.inside).symm
  obtain ⟨header?, body⟩ := arm
  cases header? with
  | none => exact hbody
  | some header =>
    have hheader := (header.sealed_source hk).congr
      (iff_false_intro fun hm => hfree header rfl hm.at_mem)
    exact (hheader.append hbody).congr (false_or _).to_iff

theorem IsLead.sealed {lead : Text} (h : IsLead lead) :
    Sealed Construct.loops.keyword lead False := by
  obtain ⟨blanks, words, hblanks, rfl, hwords⟩ := h
  refine .of_silent ((Pass.Silent.of_not_mem (hblanks.not_mem (by decide))).append ?_)
  have hfree : '@' ∉ 'e' :: ("lse".toList ++ words) := by
    simp only [List.mem_cons, List.mem_append, not_or]
    exact ⟨by decide, by decide, hwords⟩
  exact Pass.Silent.of_other (by decide) hfree

/-- Arms one after another mention what their contents do. -/
theorem mentions_readAll_iff {text : Text}
    (hfree : ∀ arm ∈ (readAll text).arms, ∀ header ∈ arm.header?, '@' ∉ header.inside) :
    text.Mentions Construct.loops.keyword ↔
      (∃ arm ∈ (readAll text).arms, arm.content.Mentions Construct.loops.keyword) ∨
        (readAll text).rest.Mentions Construct.loops.keyword := by
  induction text using reading with
  | ends text h => simp [readAll_of_none h]
  | broken text why h => simp [readAll_of_broken h]
  | arm text arm rest h ih =>
    obtain ⟨lead, hlead, rfl⟩ := exists_lead_of_read_ok h
    rw [readAll_of_ok h] at hfree ⊢
    have harm : ∀ header ∈ arm.header?, '@' ∉ header.inside := by
      split at hfree
      · exact hfree arm (List.mem_singleton.2 rfl)
      · exact hfree arm List.mem_cons_self
    rw [hlead.sealed, false_or, arm.sealed_source Construct.loops.isKeyword harm]
    split
    · simp
    next helse =>
      rw [if_neg helse] at hfree
      rw [ih fun other hother => hfree other (List.mem_cons_of_mem _ hother)]
      simp only [List.exists_mem_cons_iff, or_assoc]

end Arm

/-- A chain mentions what the contents of its arms do. -/
theorem Construct.mentions_read_iff {groups : Groups} {back left : Text} {piece : Piece chains}
    (h : chains.read groups back = some (piece, left))
    (hfree : ∀ header ∈ piece.headers, '@' ∉ header) :
    Mentions (groups.source ++ back) loops.keyword ↔
      (∃ content ∈ piece.contents, content.Mentions loops.keyword) ∨ left.Mentions loops.keyword := by
  cases h
  have harms : ∀ arm ∈ Arm.ofGroups groups :: (Arm.readAll back).arms, ∀ header ∈ arm.header?,
      '@' ∉ header.inside := fun arm harm header hheader =>
    hfree _ (List.mem_filterMap.2 ⟨arm, harm, by rw [hheader]; rfl⟩)
  obtain ⟨hfirst, hothers⟩ := List.forall_mem_cons.1 harms
  have hsource := (Arm.ofGroups groups).sealed_source loops.isKeyword hfirst back
  rw [show groups.source = (Arm.ofGroups groups).source from rfl, hsource,
    Arm.mentions_readAll_iff hothers]
  simp only [Piece.contents, List.map_cons, List.exists_mem_cons_iff, List.mem_map,
    exists_exists_and_eq_and, or_assoc]

/-- **The pass over chains leaves loops alone.** Its output mentions the keyword of loops if and only if
its text does. -/
theorem Outline.mentions_loops_iff {text tag : Text} (htag : '@' ∉ tag)
    (outline : Outline .chains text) (hfree : ∀ header ∈ outline.headers, '@' ∉ header) :
    (outline.markup tag).Mentions Construct.loops.keyword ↔ text.Mentions Construct.loops.keyword := by
  have hk := Construct.loops.isKeyword
  have hif : ∀ rest : Text,
      Mentions ('@' :: Construct.chains.keyword ++ rest) Construct.loops.keyword ↔
        rest.Mentions Construct.loops.keyword := fun _ =>
    mentions_silent_append_iff (Pass.Silent.of_other (by decide) (by decide))
  have hat : ∀ rest : Text, nameEnds ('@' :: Construct.chains.keyword ++ rest) = true := fun _ => rfl
  induction outline with
  | plain cut => rfl
  | stopped cut groups => rfl
  | skipped cut groups opens rest ih =>
    obtain ⟨rfl, -, -⟩ := (cutKeyword?_eq_some_iff Construct.chains.isKeyword).1 cut
    rw [markup, mentions_append_iff hk (hat _), mentions_append_iff hk (hat _), hif, hif]
    exact or_congr_right (ih hfree)
  | rejected cut block piece rest => cases piece
  | @compiled text before after back left groups piece cut block read contents rest ihContents ih =>
    obtain ⟨rfl, -, -⟩ := (cutKeyword?_eq_some_iff Construct.chains.isKeyword).1 cut
    simp only [headers, List.mem_append, or_imp, forall_and] at hfree
    obtain ⟨hpiece, hcontents, hrest⟩ := hfree
    rw [markup, mentions_append_iff hk (Construct.nameEnds_markup read tag _ _),
      mentions_append_iff hk (hat _), hif, piece.sealed_markup hk htag hpiece,
      Groups.read_eq_ok_iff.1 block, Construct.mentions_read_iff read hpiece]
    refine or_congr_right (or_congr (exists_congr fun content => ?_) (ih hrest))
    refine and_congr_right fun hmem => ?_
    rw [onMembers_of_mem _ hmem]
    exact ihContents content hmem fun header hheader =>
      hcontents header (List.mem_flatMap.2 ⟨content, hmem, by rwa [onMembers_of_mem _ hmem]⟩)

end FlowTemplate
