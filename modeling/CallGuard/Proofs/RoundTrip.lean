import CallGuard.Proofs.Recognition
import CallGuard.TypeExpr.Printer

/-!
# Printed types read back

The text of an expression is read as the same expression exactly if no quoted name in it has a
double quotation mark and its brackets are at most 127 deep. Where no name has one, the text has a
derivation with the expression as its tree, one level deeper than the brackets
(`exists_derivation`), and it is the only one. Where some name has one, the marks do not add up: a
text that is read has at most as many as its expression prints, and as many only if they are all
around names (`Union.count_quotes`).
-/

namespace CallGuard

namespace TypeExpr

mutual
/-- No quoted name in the expression has a double quotation mark. -/
def QuoteFree : TypeExpr → Prop
  | forward n => '"' ∉ n.toList
  | applied _ args => AllQuoteFree args
  | params items => AllQuoteFree items
  | boundedVar _ bound => QuoteFree bound
  | name _ | ellipsis | freeVar _ | ty _ | source _ => True

def AllQuoteFree : List TypeExpr → Prop
  | [] => True
  | e :: es => QuoteFree e ∧ AllQuoteFree es
end

mutual
/-- How deeply the brackets of the expression are nested. An empty list is not counted. -/
def bracketDepth : TypeExpr → Nat
  | applied _ args => itemDepth args + 1
  | params items => if items.isEmpty then 0 else itemDepth items + 1
  | name _ | ellipsis | forward _ | freeVar _ | boundedVar _ _ | ty _ | source _ => 0

def itemDepth : List TypeExpr → Nat
  | [] => 0
  | e :: es => max (bracketDepth e) (itemDepth es)
end

mutual
/-- How many double quotation marks the text of the expression has. -/
def quoteCount : TypeExpr → Nat
  | forward n => n.toList.count '"' + 2
  | applied _ args => quoteCounts args
  | params items => quoteCounts items
  | name _ | ellipsis | freeVar _ | boundedVar _ _ | ty _ | source _ => 0

def quoteCounts : List TypeExpr → Nat
  | [] => 0
  | e :: es => quoteCount e + quoteCounts es
end

theorem texts_cons_cons (e e' : TypeExpr) (es : List TypeExpr) :
    texts (e :: e' :: es) = text e ++ ", " ++ texts (e' :: es) := rfl

end TypeExpr

namespace Grammar

open TypeExpr

/-! ## A derivation of the text -/

def Quoted.ofName (n : String) (h : '"' ∉ n.toList) (hn : Bare n.toList) : Quoted where
  mark := '"'
  body := n.toList
  name := n.toList
  isMark := .inl rfl
  closed := h
  trims := ⟨hn, Blanks.none, Blanks.none, by simp [Blanks.none]⟩

/-- The blank after a comma. -/
def Blanks.space : Blanks := ⟨[' '], List.all_eq_true.1 (by decide)⟩

mutual
theorem exists_postfix : ∀ (e : TypeExpr) (s : Blanks), e.Readable → e.QuoteFree →
    ∃ p : Postfix, p.chars = s.chars ++ e.text.toList ∧ p.tree = e ∧ p.levels = e.bracketDepth
  | .name n, s, hr, _ => by
    obtain ⟨w, rfl⟩ := hr
    exact ⟨.name s w, by simp [Postfix.chars, text, Word.text], rfl, rfl⟩
  | .applied head args, s, hr, hq => by
    obtain ⟨⟨w, rfl⟩, hne, hargs⟩ := hr
    obtain ⟨items, hchars, htrees, hlevels⟩ := exists_items args Blanks.none hne hargs hq
    refine ⟨.applied s w Blanks.none items, ?_, ?_, ?_⟩
    · simp [Postfix.chars, hchars, text, Word.text, Blanks.none]
    · rw [Postfix.tree, htrees]
    · rw [Postfix.levels, hlevels, bracketDepth]
  | .params items, s, hr, hq => by
    by_cases hne : items = []
    · subst hne
      exact ⟨.empty s Blanks.none, by simp [Postfix.chars, text, texts, Blanks.none], rfl, rfl⟩
    · obtain ⟨all, hchars, htrees, hlevels⟩ := exists_items items Blanks.none hne hr hq
      refine ⟨.list s all, ?_, ?_, ?_⟩
      · simp [Postfix.chars, hchars, text, Blanks.none]
      · rw [Postfix.tree, htrees]
      · simp [Postfix.levels, hlevels, bracketDepth, hne]
  | .ellipsis, s, _, _ => ⟨.dots s, by simp [Postfix.chars, text], rfl, rfl⟩
  | .forward n, s, hr, hq => by
    refine ⟨.quoted s (Quoted.ofName n hq hr), ?_, ?_, rfl⟩
    · simp [Postfix.chars, Quoted.chars, Quoted.ofName, text]
    · simp [Postfix.tree, Quoted.text, Quoted.ofName]

theorem exists_items : ∀ (es : List TypeExpr) (s : Blanks), es ≠ [] → AllReadable es →
    AllQuoteFree es → ∃ items : Items, items.chars = s.chars ++ ((texts es).toList ++ [']']) ∧
      items.trees = es ∧ items.levels = itemDepth es + 1
  | [], _, hne, _, _ => absurd rfl hne
  | [e], s, _, hr, hq => by
    obtain ⟨p, hchars, htree, hlevels⟩ := exists_postfix e s hr.1 hq.1
    refine ⟨.last (.last p) Blanks.none, ?_, ?_, ?_⟩
    · simp [Items.chars, Union.chars, hchars, texts, Blanks.none]
    · simp [Items.trees, Union.members, joinMembers, htree]
    · simp [Items.levels, Union.levels, hlevels, itemDepth]
  | e :: e' :: es, s, _, hr, hq => by
    obtain ⟨p, hchars, htree, hlevels⟩ := exists_postfix e s hr.1 hq.1
    obtain ⟨items, hichars, hitrees, hilevels⟩ :=
      exists_items (e' :: es) Blanks.space (by simp) hr.2 hq.2
    refine ⟨.comma (.last p) Blanks.none items, ?_, ?_, ?_⟩
    · simp [Items.chars, Union.chars, hchars, hichars, texts_cons_cons, Blanks.none, Blanks.space]
    · simp [Items.trees, Union.members, joinMembers, htree, hitrees]
    · simp only [Items.levels, Union.levels, hlevels, hilevels, itemDepth]
      omega
end

theorem exists_derivation {e : TypeExpr} (hr : e.Readable) (hq : e.QuoteFree) :
    ∃ d : Derivation, d.text = e.text ∧ d.tree = e ∧ d.levels = e.bracketDepth + 1 := by
  obtain ⟨p, hchars, htree, hlevels⟩ := exists_postfix e Blanks.none hr hq
  refine ⟨⟨.last p, Blanks.none⟩, ?_, htree, ?_⟩
  · simp [Derivation.text, Derivation.chars, Union.chars, hchars, Blanks.none]
  · rw [Derivation.levels, Union.levels, hlevels]

/-! ## Counting quotation marks -/

theorem Blanks.count_quotes (s : Blanks) : s.chars.count '"' = 0 := by
  refine List.count_eq_zero.2 fun h => ?_
  exact absurd (s.blank '"' h) (by decide)

theorem Word.count_quotes (w : Word) : w.chars.count '"' = 0 := by
  refine List.count_eq_zero.2 fun h => ?_
  exact absurd (w.inWord '"' h) (by decide)

theorem Trims.count_quotes {cs name : List Char} (h : Trims cs name) :
    name.count '"' = cs.count '"' := by
  obtain ⟨-, s, t, rfl⟩ := h
  rw [List.count_append, List.count_append, s.count_quotes, t.count_quotes]
  omega

theorem Quoted.count_quotes (q : Quoted) :
    q.chars.count '"' ≤ q.text.toList.count '"' + 2 ∧
      (q.chars.count '"' = q.text.toList.count '"' + 2 → '"' ∉ q.text.toList) := by
  have htext : q.text.toList.count '"' = q.body.count '"' := by
    rw [Quoted.text, String.toList_ofList, q.trims.count_quotes]
  rcases q.isMark with hm | hm
  · have hbody : q.body.count '"' = 0 := List.count_eq_zero.2 (hm ▸ q.closed)
    have hchars : q.chars.count '"' = q.body.count '"' + 2 := by
      simp [Quoted.chars, hm]
    exact ⟨by omega, fun _ => List.count_eq_zero.1 (htext.trans hbody)⟩
  · have hchars : q.chars.count '"' = q.body.count '"' := by
      simp [Quoted.chars, hm]
    exact ⟨by omega, fun h => by omega⟩

theorem quoteCount_joinMembers (es : List TypeExpr) :
    (joinMembers es).quoteCount = quoteCounts es := by
  rcases es with _ | ⟨a, _ | ⟨b, es⟩⟩ <;> simp [joinMembers, quoteCount, quoteCounts]

theorem quoteFree_joinMembers {es : List TypeExpr} (h : AllQuoteFree es) :
    (joinMembers es).QuoteFree := by
  rcases es with _ | ⟨a, _ | ⟨b, es⟩⟩
  · exact trivial
  · exact h.1
  · exact h

mutual
theorem Postfix.count_quotes : ∀ p : Postfix, p.chars.count '"' ≤ p.tree.quoteCount ∧
    (p.chars.count '"' = p.tree.quoteCount → p.tree.QuoteFree)
  | .name s w => ⟨by simp [Postfix.chars, s.count_quotes, w.count_quotes], fun _ => trivial⟩
  | .quoted s q => by
    have hq := q.count_quotes
    have hchars : (Postfix.quoted s q).chars.count '"' = q.chars.count '"' := by
      simp [Postfix.chars, s.count_quotes]
    rw [hchars]
    exact hq
  | .dots s => ⟨by simp [Postfix.chars, s.count_quotes], fun _ => trivial⟩
  | .empty s t => ⟨by simp [Postfix.chars, s.count_quotes, t.count_quotes], fun _ => trivial⟩
  | .list s items => by
    have hi := items.count_quotes
    have hchars : (Postfix.list s items).chars.count '"' = items.chars.count '"' := by
      simp [Postfix.chars, s.count_quotes]
    rw [hchars]
    exact hi
  | .applied s w t items => by
    have hi := items.count_quotes
    have hchars : (Postfix.applied s w t items).chars.count '"' = items.chars.count '"' := by
      simp [Postfix.chars, s.count_quotes, w.count_quotes, t.count_quotes]
    rw [hchars]
    exact hi

theorem Union.count_quotes : ∀ u : Union, u.chars.count '"' ≤ quoteCounts u.members ∧
    (u.chars.count '"' = quoteCounts u.members → AllQuoteFree u.members)
  | .last p => by
    obtain ⟨hle, hfree⟩ := p.count_quotes
    exact ⟨hle, fun h => ⟨hfree h, trivial⟩⟩
  | .bar p s u => by
    obtain ⟨hle, hfree⟩ := p.count_quotes
    obtain ⟨hule, hufree⟩ := u.count_quotes
    have hchars : (Union.bar p s u).chars.count '"' = p.chars.count '"' + u.chars.count '"' := by
      simp [Union.chars, s.count_quotes]
    rw [hchars]
    simp only [Union.members, quoteCounts]
    exact ⟨by omega, fun h => ⟨hfree (by omega), hufree (by omega)⟩⟩

theorem Items.count_quotes : ∀ items : Items, items.chars.count '"' ≤ quoteCounts items.trees ∧
    (items.chars.count '"' = quoteCounts items.trees → AllQuoteFree items.trees)
  | .last u s => by
    obtain ⟨hle, hfree⟩ := u.count_quotes
    have hchars : (Items.last u s).chars.count '"' = u.chars.count '"' := by
      simp [Items.chars, s.count_quotes]
    rw [hchars]
    simp only [Items.trees, quoteCounts, quoteCount_joinMembers]
    exact ⟨hle, fun h => ⟨quoteFree_joinMembers (hfree h), trivial⟩⟩
  | .comma u s items => by
    obtain ⟨hle, hfree⟩ := u.count_quotes
    obtain ⟨hile, hifree⟩ := items.count_quotes
    have hchars : (Items.comma u s items).chars.count '"' =
        u.chars.count '"' + items.chars.count '"' := by
      simp [Items.chars, s.count_quotes]
    rw [hchars]
    simp only [Items.trees, quoteCounts, quoteCount_joinMembers]
    exact ⟨by omega, fun h => ⟨quoteFree_joinMembers (hfree (by omega)), hifree (by omega)⟩⟩
end

mutual
theorem count_quotes_text : ∀ e : TypeExpr, e.Readable → e.text.toList.count '"' = e.quoteCount
  | .name n, hr => by
    obtain ⟨w, rfl⟩ := hr
    rw [text, Word.text, String.toList_ofList]
    exact w.count_quotes
  | .applied head args, hr => by
    obtain ⟨⟨w, rfl⟩, -, hargs⟩ := hr
    have hi := count_quotes_texts args hargs
    simp [text, Word.text, w.count_quotes, hi, quoteCount]
  | .params items, hr => by
    have hi := count_quotes_texts items hr
    simp [text, hi, quoteCount]
  | .ellipsis, _ => rfl
  | .forward n, _ => by simp [text, quoteCount]

theorem count_quotes_texts : ∀ es : List TypeExpr, AllReadable es →
    (texts es).toList.count '"' = quoteCounts es
  | [], _ => rfl
  | [e], hr => count_quotes_text e hr.1
  | e :: e' :: es, hr => by
    have he := count_quotes_text e hr.1
    have hes := count_quotes_texts (e' :: es) hr.2
    rw [texts_cons_cons, quoteCounts, ← he, ← hes]
    simp
end

/-- An expression that its own text is read as has no quotation mark in a name. -/
theorem Derivation.quoteFree {d : Derivation} (h : d.text = d.tree.text) : d.tree.QuoteFree := by
  have hcount := count_quotes_text d.tree d.readable
  rw [← h, Derivation.text, String.toList_ofList, Derivation.chars, List.count_append,
    d.trailing.count_quotes, Derivation.tree, Union.tree, quoteCount_joinMembers] at hcount
  exact quoteFree_joinMembers (d.union.count_quotes.2 hcount)

/-- The text of an expression that was read is read as the same expression if and only if no quoted
name in it has a double quotation mark and its brackets are at most 127 deep. -/
theorem parse_text_iff_quoteFree_and_shallow {src : String} {e : TypeExpr}
    (h : TypeExpr.parse src = .ok e) :
    TypeExpr.parse e.text = .ok e ↔ e.QuoteFree ∧ e.bracketDepth ≤ 127 := by
  obtain ⟨written, -, -, rfl⟩ := exists_derivation_of_parse h
  constructor
  · intro hback
    obtain ⟨d, htext, hlevels, htree⟩ := exists_derivation_of_parse hback
    rw [← htree] at htext ⊢
    have hfree := Derivation.quoteFree htext
    refine ⟨hfree, ?_⟩
    -- The text has one derivation only, so the levels that were read are those of the printed one.
    obtain ⟨printed, hptext, -, hplevels⟩ := exists_derivation d.readable hfree
    rw [Derivation.ext_text (htext.trans hptext.symm), hplevels] at hlevels
    rw [depthLimit] at hlevels
    omega
  · rintro ⟨hfree, hdepth⟩
    obtain ⟨printed, hptext, hptree, hplevels⟩ := exists_derivation written.readable hfree
    have hparse := printed.parse_text (by rw [hplevels, depthLimit]; omega)
    rwa [hptext, hptree] at hparse

/-- A union written with a bar reads back from the text it prints as, and a name that was written
between single quotation marks because it has a double one does not. -/
theorem parse_text_of_union_and_of_quote :
    (TypeExpr.parse "[Int | 'Node', ...]" =
        .ok (.params [.applied "Union" [.name "Int", .forward "Node"], .ellipsis]) ∧
      TypeExpr.parse "[Union[Int, \"Node\"], ...]" =
        .ok (.params [.applied "Union" [.name "Int", .forward "Node"], .ellipsis])) ∧
    (TypeExpr.parse "'a\"b'" = .ok (.forward "a\"b") ∧
      TypeExpr.parse "\"a\"b\"" ≠ .ok (.forward "a\"b")) := by
  have hunion : TypeExpr.parse "[Int | 'Node', ...]" =
      .ok (.params [.applied "Union" [.name "Int", .forward "Node"], .ellipsis]) := rfl
  have hquote : TypeExpr.parse "'a\"b'" = .ok (.forward "a\"b") := rfl
  refine ⟨⟨hunion, (parse_text_iff_quoteFree_and_shallow hunion).2 ⟨?_, by decide⟩⟩, hquote, ?_⟩
  · simp [QuoteFree, AllQuoteFree]
  · intro hback
    have hfree := ((parse_text_iff_quoteFree_and_shallow hquote).1 hback).1
    exact hfree (by decide)

end Grammar

end CallGuard
