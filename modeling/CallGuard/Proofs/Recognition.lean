import CallGuard.Proofs.Reading

/-!
# What is read is derived

The text read so far is the beginning of a derivation (`Stands`): the open brackets with the items
finished in each (`Opened`), the finished members of the innermost union (`MembersRead`) and the
part that the phase is in (`InPhase`). One character keeps this (`Stands.read`), hence a whole text
does (`stands_of_reads`), and where a text may end, what is left open closes to a derivation of all
of it (`Stands.finish`). With the other direction, a text is read exactly if it has a derivation of at
most 128 levels.
-/

namespace CallGuard

/-! ## Trees of derivations -/

namespace TypeExpr

mutual
/-- The expressions that a text can stand for: no variable, type or unread text occurs in them,
names are words of the grammar, quoted names have no blanks at their ends, and an application has an
argument. -/
def Readable : TypeExpr → Prop
  | name n => ∃ w : Grammar.Word, w.text = n
  | applied head args => (∃ w : Grammar.Word, w.text = head) ∧ args ≠ [] ∧ AllReadable args
  | params items => AllReadable items
  | ellipsis => True
  | forward n => Grammar.Bare n.toList
  | freeVar _ | boundedVar _ _ | ty _ | source _ => False

def AllReadable : List TypeExpr → Prop
  | [] => True
  | e :: es => Readable e ∧ AllReadable es
end

end TypeExpr

namespace Grammar

open Reader

/-- The word that unions of several members are applied to. -/
def unionWord : Word where
  first := 'U'
  rest := ['n', 'i', 'o', 'n']
  start := by decide
  more c hc := isWordChar_iff.1 (List.all_eq_true.1 (by decide) c hc)

theorem joinMembers_readable {es : List TypeExpr} (hne : es ≠ [])
    (h : TypeExpr.AllReadable es) : (joinMembers es).Readable := by
  rcases es with _ | ⟨a, _ | ⟨b, es⟩⟩
  · exact absurd rfl hne
  · exact h.1
  · exact ⟨⟨unionWord, rfl⟩, hne, h⟩

theorem Union.members_ne_nil (u : Union) : u.members ≠ [] := by
  cases u <;> simp [Union.members]

theorem Items.trees_ne_nil (items : Items) : items.trees ≠ [] := by
  cases items <;> simp [Items.trees]

mutual
theorem Postfix.readable : ∀ p : Postfix, p.tree.Readable
  | .name _ w => ⟨w, rfl⟩
  | .quoted _ q => by
    show Bare q.text.toList
    rw [Quoted.text, String.toList_ofList]
    exact q.trims.toBare
  | .dots _ => trivial
  | .empty _ _ => trivial
  | .list _ items => items.readable
  | .applied _ w _ items => ⟨⟨w, rfl⟩, items.trees_ne_nil, items.readable⟩

theorem Union.readable : ∀ u : Union, TypeExpr.AllReadable u.members
  | .last p => ⟨p.readable, trivial⟩
  | .bar p _ u => ⟨p.readable, u.readable⟩

theorem Items.readable : ∀ items : Items, TypeExpr.AllReadable items.trees
  | .last u _ => ⟨joinMembers_readable u.members_ne_nil u.readable, trivial⟩
  | .comma u _ items => ⟨joinMembers_readable u.members_ne_nil u.readable, items.readable⟩
end

theorem Derivation.readable (d : Derivation) : d.tree.Readable :=
  joinMembers_readable d.union.members_ne_nil d.union.readable

/-! ## Texts that have begun -/

def Blanks.none : Blanks := ⟨[], by simp⟩

def Blanks.snoc (s : Blanks) (c : Char) (h : Text.isBlank c = true) : Blanks where
  chars := s.chars ++ [c]
  blank d hd := by
    rcases List.mem_append.1 hd with hd | hd
    · exact s.blank d hd
    · rwa [List.mem_singleton.1 hd]

def Word.snoc (w : Word) (c : Char) (h : InWord c) : Word where
  first := w.first
  rest := w.rest ++ [c]
  start := w.start
  more d hd := by
    rcases List.mem_append.1 hd with hd | hd
    · exact w.more d hd
    · rwa [List.mem_singleton.1 hd]

/-- `cs` are finished members of a union inside `d` brackets, each with the bar after it. The
members are listed with the latest first, as a reader holds them. -/
inductive MembersRead (d : Nat) : List TypeExpr → List Char → Prop where
  | nil : MembersRead d [] []
  | snoc {ms : List TypeExpr} {cs : List Char} (h : MembersRead d ms cs) (p : Postfix) (s : Blanks)
      (hp : d + p.levels < depthLimit) :
      MembersRead d (p.tree :: ms) (cs ++ (p.chars ++ (s.chars ++ ['|'])))

/-- `cs` are finished items of the innermost of `d` brackets, each with the comma after it. -/
inductive ItemsRead (d : Nat) : List TypeExpr → List Char → Prop where
  | nil : ItemsRead d [] []
  | snoc {es : List TypeExpr} {cs : List Char} (h : ItemsRead d es cs) (u : Union) (s : Blanks)
      (hu : d + u.levels ≤ depthLimit) :
      ItemsRead d (u.tree :: es) (cs ++ (u.chars ++ (s.chars ++ [','])))

/-- What stands before a bracket that opens. -/
inductive Head : Option String → List Char → Prop where
  | none (s : Blanks) : Head none s.chars
  | some (s : Blanks) (w : Word) (t : Blanks) : Head (some w.text) (s.chars ++ (w.chars ++ t.chars))

/-- `cs` is the text up to the finished items of the innermost of the brackets. -/
inductive Opened : List Bracket → List Char → Prop where
  | nil : Opened [] []
  | cons {bs : List Bracket} {ms es : List TypeExpr} {head : Option String}
      {before mid hcs items : List Char} (hb : Opened bs before)
      (hm : MembersRead bs.length ms mid) (hh : Head head hcs)
      (hi : ItemsRead (bs.length + 1) es items) :
      Opened (⟨head, ms, es⟩ :: bs) (before ++ (mid ++ (hcs ++ '[' :: items)))

/-- `cs` is what has been read of a member inside `d` brackets, in each phase but the one after a
bracket that opens. -/
inductive InPhase (d : Nat) : Phase → List Char → Prop where
  | operand (s : Blanks) (hd : d < depthLimit) : InPhase d .operand s.chars
  | oneDot (s : Blanks) (hd : d < depthLimit) : InPhase d (.dots 1) (s.chars ++ ['.'])
  | twoDots (s : Blanks) (hd : d < depthLimit) : InPhase d (.dots 2) (s.chars ++ ['.', '.'])
  | quoted (s : Blanks) {m : Char} (start : Nat) {body : List Char} (hd : d < depthLimit)
      (hm : m = '"' ∨ m = '\'') (hbody : m ∉ body) :
      InPhase d (.quoted m start body.reverse) (s.chars ++ m :: body)
  | word (s : Blanks) (w : Word) (hd : d < depthLimit) :
      InPhase d (.word w.chars.reverse) (s.chars ++ w.chars)
  | named (s : Blanks) (w : Word) (t : Blanks) (hd : d < depthLimit) :
      InPhase d (.named w.text) (s.chars ++ (w.chars ++ t.chars))
  | finished (p : Postfix) (t : Blanks) (hp : d + p.levels < depthLimit) :
      InPhase d (.finished p.tree) (p.chars ++ t.chars)

/-- `cs` has brought a reader to where it stands. A bracket that has just been opened may be one
too many for an item to begin in it, so it is not yet counted. -/
inductive Stands : Reader → List Char → Prop where
  | inside (o : Nat) {bs : List Bracket} {ms : List TypeExpr} {ph : Phase}
      {before mid last : List Char} (hb : Opened bs before) (hm : MembersRead bs.length ms mid)
      (hp : InPhase bs.length ph last) : Stands ⟨o, bs, ms, ph⟩ (before ++ (mid ++ last))
  | opened (o : Nat) {bs : List Bracket} {ms : List TypeExpr} {head : Option String}
      {before mid hcs : List Char} (hb : Opened bs before) (hm : MembersRead bs.length ms mid)
      (hh : Head head hcs) (t : Blanks) (hd : bs.length < depthLimit) :
      Stands ⟨o, ⟨head, ms, []⟩ :: bs, [], .opened⟩ (before ++ (mid ++ (hcs ++ '[' :: t.chars)))

theorem Stands.offset {r : Reader} {cs : List Char} (h : Stands r cs) (o : Nat) :
    Stands { r with offset := o } cs := by
  cases h with
  | inside _ hb hm hp => exact .inside o hb hm hp
  | opened _ hb hm hh t hd => exact .opened o hb hm hh t hd

/-! ## Finished parts make larger ones -/

/-- Finished members and a union that goes on after them are one union. -/
theorem MembersRead.union {d : Nat} {ms : List TypeExpr} {cs : List Char}
    (h : MembersRead d ms cs) : ∀ u : Union, d + u.levels ≤ depthLimit →
      ∃ v : Union, v.chars = cs ++ u.chars ∧ v.members = ms.reverse ++ u.members ∧
        d + v.levels ≤ depthLimit := by
  induction h with
  | nil => exact fun u hu => ⟨u, rfl, rfl, hu⟩
  | @snoc ms cs h p s hp ih =>
    intro u hu
    obtain ⟨v, hchars, hmembers, hv⟩ := ih (.bar p s u) (by simp only [Union.levels]; omega)
    refine ⟨v, ?_, ?_, hv⟩
    · rw [hchars]
      simp [Union.chars]
    · rw [hmembers]
      simp [Union.members]

/-- Finished items and items that go on after them are the items of one bracket. -/
theorem ItemsRead.items {d : Nat} {es : List TypeExpr} {cs : List Char} (h : ItemsRead d es cs) :
    ∀ items : Items, d + items.levels ≤ depthLimit →
      ∃ all : Items, all.chars = cs ++ items.chars ∧ all.trees = es.reverse ++ items.trees ∧
        d + all.levels ≤ depthLimit := by
  induction h with
  | nil => exact fun items hi => ⟨items, rfl, rfl, hi⟩
  | @snoc es cs h u s hu ih =>
    intro items hi
    obtain ⟨all, hchars, htrees, hall⟩ := ih (.comma u s items) (by simp only [Items.levels]; omega)
    refine ⟨all, ?_, ?_, hall⟩
    · rw [hchars]
      simp [Items.chars]
    · rw [htrees]
      simp [Items.trees, Union.tree]

/-- The union that ends with the member `p`. -/
theorem MembersRead.last {d : Nat} {ms : List TypeExpr} {cs : List Char} (h : MembersRead d ms cs)
    (p : Postfix) (hp : d + p.levels < depthLimit) :
    ∃ u : Union, u.chars = cs ++ p.chars ∧ u.tree = joined (p.tree :: ms) ∧
      d + u.levels ≤ depthLimit := by
  obtain ⟨u, hchars, hmembers, hu⟩ := h.union (.last p) (by simp only [Union.levels]; omega)
  refine ⟨u, hchars, ?_, hu⟩
  have hrev : (p.tree :: ms) = u.members.reverse := by simp [hmembers, Union.members]
  rw [hrev, joined_reverse, Union.tree]

theorem Head.close {head : Option String} {hcs : List Char} (h : Head head hcs) (items : Items)
    (outer es : List TypeExpr) :
    ∃ p : Postfix, p.chars = hcs ++ '[' :: items.chars ∧
      p.tree = (Bracket.mk head outer es).close items.trees.reverse ∧ p.levels = items.levels := by
  cases h with
  | none s => exact ⟨.list s items, rfl, by simp [Postfix.tree, Bracket.close], rfl⟩
  | some s w t =>
    refine ⟨.applied s w t items, ?_, ?_, rfl⟩
    · simp [Postfix.chars]
    · simp [Postfix.tree, Bracket.close]

/-! ## One character -/

section Step

variable {o : Nat} {bs : List Bracket} {ms : List TypeExpr} {before mid : List Char} {c : Char}
  {n : Reader}

theorem stands_readOperand {ph : Phase} (hb : Opened bs before) (hm : MembersRead bs.length ms mid)
    (s : Blanks) (hd : bs.length < depthLimit) (h : readOperand ⟨o, bs, ms, ph⟩ c = .ok n) :
    Stands n (before ++ (mid ++ (s.chars ++ [c]))) := by
  unfold readOperand at h
  split at h
  · rename_i hc
    cases h
    subst hc
    exact .opened o hb hm (.none s) Blanks.none hd
  · split at h
    · rename_i hc
      cases h
      subst hc
      exact .inside o hb hm (.oneDot s hd)
    · split at h
      · rename_i hc
        cases h
        have hphase : InPhase bs.length (.quoted c o [].reverse) (s.chars ++ [c]) :=
          .quoted s o hd hc (by simp)
        exact .inside o hb hm hphase
      · split at h
        · rename_i hc
          cases h
          exact .inside o hb hm (.word s ⟨c, [], isWordStart_iff.1 hc, by simp⟩ hd)
        · cases h

theorem stands_readAfter {ph : Phase} (hb : Opened bs before) (hm : MembersRead bs.length ms mid)
    (p : Postfix) (hp : bs.length + p.levels < depthLimit) (t : Blanks)
    (h : readAfter ⟨o, bs, ms, ph⟩ p.tree c = .ok n) :
    Stands n (before ++ (mid ++ (p.chars ++ (t.chars ++ [c])))) := by
  unfold readAfter at h
  split at h
  · -- A bar: the member is finished and the union goes on.
    rename_i hc
    cases h
    subst hc
    have hstands := Stands.inside o hb (hm.snoc p t hp)
      (.operand Blanks.none (Nat.lt_of_le_of_lt (Nat.le_add_right _ _) hp))
    simpa [Blanks.none] using hstands
  · obtain ⟨u, huchars, hutree, hu⟩ := hm.last p hp
    cases hb with
    | nil => cases h
    | @cons bs outer es head before mid' hcs items hb hm' hh hi =>
      simp only [List.length_cons] at hu hp h
      split at h
      · -- A comma: the union is a finished item.
        rename_i hc
        cases h
        subst hc
        rw [← hutree]
        have hopened := Opened.cons hb hm' hh (hi.snoc u t hu)
        have hstands := Stands.inside o hopened .nil
          (.operand Blanks.none (by simp only [List.length_cons]; omega))
        simpa [Blanks.none, huchars] using hstands
      · split at h
        · -- The bracket closes to a member of the union around it.
          rename_i hc
          cases h
          subst hc
          obtain ⟨all, hachars, hatrees, hall⟩ := hi.items (.last u t) (by simpa [Items.levels])
          obtain ⟨q, hqchars, hqtree, hq⟩ := hh.close all outer es
          have htrees : all.trees.reverse = joined (p.tree :: ms) :: es := by
            simp [hatrees, Items.trees, ← hutree, Union.tree]
          have hstands := Stands.inside o hb hm' (.finished q Blanks.none (by omega))
          rw [hqtree, htrees] at hstands
          simpa [Blanks.none, hqchars, hachars, huchars, Items.chars] using hstands
        · cases h

theorem stands_readAfterName {ph : Phase} (hb : Opened bs before)
    (hm : MembersRead bs.length ms mid) (s : Blanks) (w : Word) (t : Blanks)
    (hd : bs.length < depthLimit) (h : readAfterName ⟨o, bs, ms, ph⟩ w.text c = .ok n) :
    Stands n (before ++ (mid ++ (s.chars ++ (w.chars ++ (t.chars ++ [c]))))) := by
  unfold readAfterName at h
  split at h
  · rename_i hc
    cases h
    exact .inside o hb hm (.named s w (t.snoc c hc) hd)
  · split at h
    · rename_i hc
      cases h
      subst hc
      have hstands := Stands.opened o hb hm (.some s w t) Blanks.none hd
      simpa [Blanks.none, openBracket] using hstands
    · have hstands := stands_readAfter hb hm (.name s w) hd t h
      simpa [Postfix.chars] using hstands

theorem stands_readFirstItem {head : Option String} {hcs : List Char} (hb : Opened bs before)
    (hm : MembersRead bs.length ms mid) (hh : Head head hcs) (t : Blanks)
    (hd : bs.length < depthLimit)
    (h : readFirstItem ⟨o, ⟨head, ms, []⟩ :: bs, [], .opened⟩ c = .ok n) :
    Stands n (before ++ (mid ++ (hcs ++ '[' :: (t.chars ++ [c])))) := by
  unfold readFirstItem at h
  split at h
  · rename_i heq
    simp only [List.cons.injEq, Bracket.mk.injEq] at heq
    obtain ⟨⟨rfl, rfl, -⟩, rfl⟩ := heq
    cases h
    cases hh with
    | none s =>
      have hstands := Stands.inside o hb hm (.finished (.empty s t) Blanks.none hd)
      simpa [Blanks.none, Postfix.chars, Postfix.tree] using hstands
  · split at h
    · cases h
    · rename_i hlimit
      have hstands := stands_readOperand (.cons hb hm hh .nil) .nil t (by simpa using hlimit) h
      simpa using hstands

end Step

theorem Stands.read {r n : Reader} {cs : List Char} {c : Char} (h : Stands r cs)
    (hn : r.read c = .ok n) : Stands n (cs ++ [c]) := by
  cases h with
  | @opened o bs ms head before mid hcs hb hm hh t hd =>
    simp only [Reader.read] at hn
    split at hn
    · rename_i hc
      cases hn
      have hstands := Stands.opened o hb hm hh (t.snoc c hc) hd
      simpa [Blanks.snoc] using hstands
    · simpa using stands_readFirstItem hb hm hh t hd hn
  | @inside o bs ms ph before mid last hb hm hp =>
    cases hp with
    | operand s hd =>
      simp only [Reader.read] at hn
      split at hn
      · rename_i hc
        cases hn
        simpa [Blanks.snoc] using Stands.inside o hb hm (.operand (s.snoc c hc) hd)
      · simpa using stands_readOperand hb hm s hd hn
    | oneDot s hd =>
      simp only [Reader.read, if_true] at hn
      split at hn
      · rename_i hc
        cases hn
        subst hc
        simpa using Stands.inside o hb hm (.twoDots s hd)
      · cases hn
    | twoDots s hd =>
      simp only [Reader.read] at hn
      split at hn
      · rename_i hc
        cases hn
        subst hc
        have hstands := Stands.inside o hb hm (.finished (.dots s) Blanks.none hd)
        simpa [Blanks.none, Postfix.chars, Postfix.tree] using hstands
      · cases hn
    | @quoted s m start body hd hm' hbody =>
      simp only [Reader.read] at hn
      split at hn
      · rename_i hc
        cases hn
        subst hc
        have hstands := Stands.inside o hb hm
          (.finished (.quoted s ⟨c, body, _, hm', hbody, trims_trimBlanks body⟩) Blanks.none hd)
        simpa [Blanks.none, Postfix.chars, Postfix.tree, Quoted.chars, Quoted.text] using hstands
      · rename_i hc
        cases hn
        have hphase : InPhase bs.length (.quoted m start (body ++ [c]).reverse)
            (s.chars ++ m :: (body ++ [c])) :=
          .quoted s start hd hm' (by simp [hbody, Ne.symm hc])
        simpa using Stands.inside o hb hm hphase
    | word s w hd =>
      simp only [Reader.read] at hn
      split at hn
      · rename_i hc
        cases hn
        have hstands := Stands.inside o hb hm (.word s (w.snoc c (isWordChar_iff.1 hc)) hd)
        simpa [Word.snoc, Word.chars] using hstands
      · rw [List.reverse_reverse] at hn
        simpa [Blanks.none] using stands_readAfterName hb hm s w Blanks.none hd hn
    | named s w t hd => simpa using stands_readAfterName hb hm s w t hd hn
    | finished p t hp =>
      simp only [Reader.read] at hn
      split at hn
      · rename_i hc
        cases hn
        simpa [Blanks.snoc] using Stands.inside o hb hm (.finished p (t.snoc c hc) hp)
      · simpa using stands_readAfter hb hm p hp t hn

/-! ## Whole texts -/

theorem stands_of_reads {cs : List Char} {r : Reader} (h : Reads start cs r) : Stands r cs :=
  Reads.invariant (P := fun cs r => Stands r cs) (fun hs hn => (hs.read hn).offset _)
    (.inside 0 .nil .nil (.operand Blanks.none (by decide))) h

/-- Where a text may end after the member `p`, it has a derivation. -/
theorem derivation_of_endAfter {o : Nat} {bs : List Bracket} {ms : List TypeExpr} {ph : Phase}
    {before mid : List Char} {e : TypeExpr} (hb : Opened bs before)
    (hm : MembersRead bs.length ms mid) (p : Postfix) (hp : bs.length + p.levels < depthLimit)
    (t : Blanks) (he : endAfter ⟨o, bs, ms, ph⟩ p.tree = .ok e) :
    ∃ d : Derivation, d.chars = before ++ (mid ++ (p.chars ++ t.chars)) ∧ d.levels ≤ depthLimit ∧
      d.tree = e := by
  cases hb with
  | cons => cases he
  | nil =>
    obtain ⟨u, hchars, htree, hu⟩ := hm.last p hp
    cases he
    exact ⟨⟨u, t⟩, by simp [Derivation.chars, hchars], by simpa [Derivation.levels] using hu, htree⟩

theorem Stands.finish {r : Reader} {cs : List Char} {e : TypeExpr} (h : Stands r cs)
    (he : r.finish = .ok e) :
    ∃ d : Derivation, d.chars = cs ∧ d.levels ≤ depthLimit ∧ d.tree = e := by
  cases h with
  | opened o hb hm hh t hd =>
    simp only [Reader.finish] at he
    split at he <;> cases he
  | inside o hb hm hp =>
    cases hp with
    | operand => cases he
    | oneDot => cases he
    | twoDots => cases he
    | quoted => cases he
    | word s w hd =>
      simp only [Reader.finish, List.reverse_reverse] at he
      obtain ⟨d, hchars, hd', htree⟩ := derivation_of_endAfter hb hm (.name s w) hd Blanks.none he
      exact ⟨d, by simp [hchars, Postfix.chars, Blanks.none], hd', htree⟩
    | named s w t hd =>
      obtain ⟨d, hchars, hd', htree⟩ := derivation_of_endAfter hb hm (.name s w) hd t he
      exact ⟨d, by simp [hchars, Postfix.chars], hd', htree⟩
    | finished p t hp => exact derivation_of_endAfter hb hm p hp t he

theorem exists_derivation_of_parse {src : String} {e : TypeExpr} (h : TypeExpr.parse src = .ok e) :
    ∃ d : Derivation, d.text = src ∧ d.levels ≤ depthLimit ∧ d.tree = e := by
  unfold TypeExpr.parse at h
  cases hr : src.toList.foldlM step start with
  | error err =>
    rw [hr] at h
    cases h
  | ok r =>
    rw [hr] at h
    obtain ⟨d, hchars, hd, htree⟩ := (stands_of_reads hr).finish h
    refine ⟨d, ?_, hd, htree⟩
    rw [Derivation.text, hchars, String.ofList_toList]

theorem Derivation.ext_text {d d' : Derivation} (h : d.text = d'.text) : d = d' := by
  refine Derivation.ext_chars ?_
  have hlist := congrArg String.toList h
  rwa [Derivation.text, Derivation.text, String.toList_ofList, String.toList_ofList] at hlist

/-- The reader accepts exactly the grammar, up to 128 levels of unions: it reads a text as `e` if
and only if the text has a derivation with the expression `e`. A text has no second derivation, at
any depth, and what is read holds nothing that cannot be written. -/
theorem parse_accepts_exactly_the_grammar (src : String) (e : TypeExpr) :
    (TypeExpr.parse src = .ok e ↔
      ∃ d : Derivation, d.text = src ∧ d.levels ≤ 128 ∧ d.tree = e) ∧
    (∀ d d' : Derivation, d.text = src → d'.text = src → d = d') ∧
    (TypeExpr.parse src = .ok e → e.Readable) := by
  refine ⟨⟨exists_derivation_of_parse, ?_⟩, ?_, ?_⟩
  · rintro ⟨d, rfl, hd, rfl⟩
    exact d.parse_text hd
  · intro d d' hd hd'
    exact Derivation.ext_text (hd.trans hd'.symm)
  · intro h
    obtain ⟨d, -, -, rfl⟩ := exists_derivation_of_parse h
    exact d.readable

end Grammar

end CallGuard
