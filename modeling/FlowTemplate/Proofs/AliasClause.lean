/-
The grammar of conditions. A trimmed header names an alias exactly if it ends in an alias clause with
something in front of it. It does so in one way only, with the last semicolon (`Aliased.source_injective`),
whatever else in it looks like a clause; so a header is read as its condition and its alias, and what was
written as such is read back (`Condition.ofHeader_grammar`).
-/
import FlowTemplate.Proofs.LoopClause

namespace FlowTemplate

open Template

namespace Condition

/-- A text in front of an alias clause `; as name`. The text may be any but the empty one. -/
structure Aliased where
  expression : Text
  ne_nil : expression ≠ []
  afterSemicolon : Blanks
  afterAs : Gap
  name : Name

namespace Aliased

variable {header : Text} {parts : Aliased}

/-- What stands behind the semicolon. -/
def clause (parts : Aliased) : Text :=
  parts.afterSemicolon.text ++ ("as".toList ++ (parts.afterAs.text ++ parts.name.text))

/-- The text and the clause as they are written. -/
def source (parts : Aliased) : Text := parts.expression ++ ';' :: parts.clause

/-- The clause by itself, with no blanks in front of its semicolon. -/
def aliasClause (parts : Aliased) : AliasClause :=
  ⟨⟨[], .nil⟩, parts.afterSemicolon, parts.afterAs, parts.name⟩

theorem semicolon_not_mem (parts : Aliased) : ';' ∉ parts.clause :=
  parts.aliasClause.semicolon_not_mem

theorem cutLast?_source (parts : Aliased) :
    cutLast? parts.source = some (parts.expression, parts.clause) :=
  cutLast?_append parts.semicolon_not_mem

theorem aliasClause?_clause (parts : Aliased) :
    aliasClause? parts.clause = some parts.name.text := parts.aliasClause.read

theorem head_as (rest : Text) : ∀ c ∈ ("as".toList ++ rest).head?, isBlank c = false := by
  rintro _ ⟨⟩
  decide

/-- There is one way to write a text as one with an alias clause: the last semicolon is where the clause
begins, and its words have no blanks in them. -/
theorem source_injective : Function.Injective source := by
  intro first second h
  have hcut := congrArg cutLast? h
  rw [cutLast?_source, cutLast?_source, Option.some.injEq, Prod.mk.injEq] at hcut
  have hname := congrArg aliasClause? hcut.2
  rw [aliasClause?_clause, aliasClause?_clause, Option.some.injEq] at hname
  obtain ⟨expression, hne, ⟨blanks, hblanks⟩, ⟨⟨gap, hgap⟩, hgapNe⟩, ⟨name, hvalid⟩⟩ := first
  obtain ⟨expression', hne', ⟨blanks', hblanks'⟩, ⟨⟨gap', hgap'⟩, hgapNe'⟩, ⟨name', hvalid'⟩⟩ := second
  obtain ⟨rfl, hclause⟩ := hcut
  obtain rfl : name = name' := hname
  obtain ⟨rfl, hwords⟩ := Text.Blank.append_inj hblanks hblanks' (head_as _) (head_as _) hclause
  obtain rfl : gap = gap' := List.append_cancel_right (List.append_cancel_left hwords)
  rfl

theorem endsInAlias_iff {text : Text} :
    EndsInAlias text ↔ ∃ parts : Aliased, parts.source = text := by
  constructor
  · rintro ⟨expression, blanks, gap, name, hne, hblanks, hgap, hgapNe, hvalid, rfl⟩
    exact ⟨⟨expression, hne, ⟨blanks, hblanks⟩, ⟨⟨gap, hgap⟩, hgapNe⟩, ⟨name, hvalid⟩⟩, rfl⟩
  · rintro ⟨parts, rfl⟩
    exact ⟨parts.expression, parts.afterSemicolon.text, parts.afterAs.text, parts.name.text, parts.ne_nil,
      parts.afterSemicolon.blank, parts.afterAs.blank, parts.afterAs.ne_nil, parts.name.valid, rfl⟩

/-- A header that ends in an alias clause is read as what stands before it and the name in it. -/
theorem ofHeader_eq (h : parts.source = header.trim) :
    ofHeader header = ⟨parts.expression.trim, some parts.name.text⟩ := by
  obtain ⟨c, cs, hexpression⟩ := List.exists_cons_of_ne_nil parts.ne_nil
  simp only [ofHeader, ← h, cutLast?_source, aliasClause?_clause, hexpression]

theorem trim_expression_ne_nil (h : parts.source = header.trim) : parts.expression.trim ≠ [] := by
  intro hnil
  obtain ⟨c, cs, hexpression⟩ := List.exists_cons_of_ne_nil parts.ne_nil
  have hblank := Text.Blank.of_trim hnil c (by rw [hexpression]; exact List.mem_cons_self)
  have hhead := Text.head_trim header c (by rw [← h, source, hexpression]; rfl)
  rw [hblank] at hhead
  cases hhead

end Aliased

theorem ofHeader_of_not_aliased {header : Text}
    (h : ¬ ∃ parts : Aliased, parts.source = header.trim) : ofHeader header = ⟨header.trim, none⟩ := by
  have hplain := ofHeader_of_plain (Text.trim_trim header) (mt Aliased.endsInAlias_iff.1 h)
  rwa [ofHeader, Text.trim_trim, ← ofHeader] at hplain

/-- **The grammar of conditions.** A header has an alias exactly if it ends, but for blanks, in an alias
clause behind some text. There is one such clause at most, and it begins with the last semicolon; the
condition is what stands before it, trimmed, and never empty. Every other header is the condition, trimmed.
So what is written as a condition with an alias is read back, also if the condition has semicolons and
clauses in it. -/
theorem ofHeader_grammar :
    (∀ header : Text,
      ((∃ name, (ofHeader header).alias? = some name) ↔
        ∃ parts : Aliased, parts.source = header.trim) ∧
      (∀ parts : Aliased, parts.source = header.trim →
        (∀ other : Aliased, other.source = header.trim → other = parts) ∧ ';' ∉ parts.clause ∧
        parts.expression.trim ≠ [] ∧
        ofHeader header = ⟨parts.expression.trim, some parts.name.text⟩) ∧
      ((¬ ∃ parts : Aliased, parts.source = header.trim) → ofHeader header = ⟨header.trim, none⟩)) ∧
    ∀ (expression : Text) (clause : AliasClause) (before after : Blanks),
      expression ≠ [] → expression.trim = expression →
      ofHeader (before.text ++ ((expression ++ clause.source) ++ after.text)) =
        ⟨expression, some clause.name.text⟩ := by
  refine ⟨fun header => ⟨⟨?_, ?_⟩, fun parts h => ⟨fun other hother => ?_, parts.semicolon_not_mem,
    Aliased.trim_expression_ne_nil h, Aliased.ofHeader_eq h⟩, ofHeader_of_not_aliased⟩, ?_⟩
  · rintro ⟨name, hname⟩
    by_contra hnone
    rw [ofHeader_of_not_aliased hnone] at hname
    cases hname
  · rintro ⟨parts, h⟩
    exact ⟨_, congrArg Condition.alias? (Aliased.ofHeader_eq h)⟩
  · exact Aliased.source_injective (hother.trans h.symm)
  · intro expression clause before after hne htrim
    exact ofHeader_withAlias hne htrim (some clause) nofun before.blank after.blank

/-- A condition that looks like one with an alias itself. -/
theorem ofHeader_grammar_sample :
    ofHeader " a; as b ;as\t c$1\n".toList = ⟨"a; as b".toList, some "c$1".toList⟩ ∧
      ofHeader "a; as b ; as\tc$1 ".toList = ⟨"a; as b".toList, some "c$1".toList⟩ := by
  obtain ⟨hread, hwritten⟩ := ofHeader_grammar
  let parts : Aliased := ⟨"a; as b ".toList, by decide, ⟨[], by decide⟩, ⟨⟨"\t ".toList, by decide⟩, by decide⟩,
    ⟨"c$1".toList, by decide⟩⟩
  obtain ⟨-, -, -, hheader⟩ := (hread " a; as b ;as\t c$1\n".toList).2.1 parts (by decide +kernel)
  let clause : AliasClause := ⟨⟨" ".toList, by decide⟩, ⟨" ".toList, by decide⟩,
    ⟨⟨"\t".toList, by decide⟩, by decide⟩, ⟨"c$1".toList, by decide⟩⟩
  exact ⟨hheader, hwritten "a; as b".toList clause ⟨[], by decide⟩ ⟨" ".toList, by decide⟩ (by decide)
    (by decide +kernel)⟩

end Condition

end FlowTemplate
