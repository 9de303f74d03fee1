import CallGuard.Proofs.Grammar
import CallGuard.TypeExpr.Reader

/-!
# What the grammar derives is read

From a state where a type may begin (`Ready`), reading the characters of a member, a union or items
leads to the state after it (`After`), with the same brackets open and the expression of the
derivation read (`Postfix.reads`, `Union.reads`, `Items.reads`). The limit on open brackets is met
as long as the derivation has no more than `depthLimit` levels below the brackets around it.
-/

namespace CallGuard

namespace Reader

/-! ## The character classes -/

theorem isWordStart_iff {c : Char} : isWordStart c = true ↔ Grammar.StartsWord c := by
  rw [isWordStart, Bool.or_eq_true, beq_iff_eq, Grammar.StartsWord]

theorem isWordChar_iff {c : Char} : isWordChar c = true ↔ Grammar.InWord c := by
  rw [isWordChar, Bool.or_eq_true, isWordStart_iff, Grammar.InWord]

theorem isWordChar_of_isBlank {c : Char} (h : Text.isBlank c = true) : isWordChar c = false :=
  Bool.eq_false_iff.2 (mt isWordChar_iff.1 (Grammar.not_inWord_of_isBlank h))

/-! ## Steps -/

/-- Reading `cs` takes the reader `r` to `r'`. -/
def Reads (r : Reader) (cs : List Char) (r' : Reader) : Prop :=
  cs.foldlM step r = .ok r'

theorem Reads.append {r₁ r₂ r₃ : Reader} {as bs : List Char} (h : Reads r₁ as r₂)
    (h' : Reads r₂ bs r₃) : Reads r₁ (as ++ bs) r₃ := by
  unfold Reads at h h' ⊢
  rw [List.foldlM_append, h]
  exact h'

theorem Reads.cons {r₁ r₂ r₃ : Reader} {c : Char} {cs : List Char} (h : Reads r₁ [c] r₂)
    (h' : Reads r₂ cs r₃) : Reads r₁ (c :: cs) r₃ := by
  show Reads r₁ ([c] ++ cs) r₃
  exact h.append h'

/-- One character, where only the offset is left open. -/
theorem reads_of_read {r n : Reader} {c : Char} (h : r.read c = .ok n) :
    ∃ o, Reads r [c] ⟨o, n.brackets, n.members, n.phase⟩ := by
  refine ⟨r.offset + c.utf8Size, ?_⟩
  simp only [Reads, List.foldlM_cons, List.foldlM_nil, step, h]
  rfl

/-- What every character that is read keeps is kept by a text that is read. -/
theorem Reads.invariant {P : List Char → Reader → Prop}
    (hread : ∀ {cs : List Char} {r n : Reader} {c : Char}, P cs r → r.read c = .ok n →
      P (cs ++ [c]) { n with offset := r.offset + c.utf8Size }) :
    ∀ {cs before : List Char} {r r' : Reader}, P before r → Reads r cs r' → P (before ++ cs) r'
  | [], before, r, r', h, hr => by
    cases hr
    rwa [List.append_nil]
  | c :: cs, before, r, r', h, hr => by
    simp only [Reads, List.foldlM_cons, step] at hr
    cases hn : r.read c with
    | error e =>
      rw [hn] at hr
      cases hr
    | ok n =>
      rw [hn] at hr
      rw [List.append_cons]
      exact Reads.invariant hread (hread h hn) hr

/-- A type may begin, in front of the members `ms` of the innermost union inside the brackets
`bs`. -/
inductive Ready : Reader → List Bracket → List TypeExpr → Prop where
  | operand (o : Nat) (bs : List Bracket) (ms : List TypeExpr) : Ready ⟨o, bs, ms, .operand⟩ bs ms
  | opened (o : Nat) {bs : List Bracket} (ms : List TypeExpr) (h : bs.length < depthLimit) :
      Ready ⟨o, bs, ms, .opened⟩ bs ms

/-- The type `e` has been read after the members `ms` inside the brackets `bs`. A name may still go
on, and a bracket may follow it, which is why three phases qualify. -/
inductive After : Reader → List Bracket → List TypeExpr → TypeExpr → Prop where
  | word (o : Nat) (bs : List Bracket) (ms : List TypeExpr) (letters : List Char) :
      After ⟨o, bs, ms, .word letters⟩ bs ms (.name (String.ofList letters.reverse))
  | named (o : Nat) (bs : List Bracket) (ms : List TypeExpr) (n : String) :
      After ⟨o, bs, ms, .named n⟩ bs ms (.name n)
  | finished (o : Nat) (bs : List Bracket) (ms : List TypeExpr) (e : TypeExpr) :
      After ⟨o, bs, ms, .finished e⟩ bs ms e

variable {r : Reader} {bs : List Bracket} {ms : List TypeExpr} {e : TypeExpr}

/-! ## Before a type -/

/-- Blanks leave a reader that reads a blank and stays as it is where it was. -/
theorem reads_blanks (s : Grammar.Blanks)
    (keep : ∀ (o : Nat) (c : Char), Text.isBlank c = true →
      read { r with offset := o } c = .ok { r with offset := o }) :
    ∃ o, Reads r s.chars { r with offset := o } := by
  obtain ⟨cs, hcs⟩ := s
  show ∃ o, Reads r cs { r with offset := o }
  induction cs generalizing r with
  | nil => exact ⟨r.offset, rfl⟩
  | cons c cs ih =>
    obtain ⟨o₁, h₁⟩ := reads_of_read (keep r.offset c (hcs c List.mem_cons_self))
    obtain ⟨o₂, h₂⟩ := ih (r := { r with offset := o₁ }) keep
      fun d hd => hcs d (List.mem_cons_of_mem _ hd)
    exact ⟨o₂, h₁.cons h₂⟩

theorem Ready.read_blanks (h : Ready r bs ms) (s : Grammar.Blanks) :
    ∃ r', Reads r s.chars r' ∧ Ready r' bs ms := by
  cases h with
  | operand o =>
    obtain ⟨o', h⟩ := reads_blanks (r := ⟨o, bs, ms, .operand⟩) s
      fun _ c hc => by simp [read, hc]
    exact ⟨_, h, .operand o' bs ms⟩
  | opened o _ hl =>
    obtain ⟨o', h⟩ := reads_blanks (r := ⟨o, bs, ms, .opened⟩) s
      fun _ c hc => by simp [read, hc]
    exact ⟨_, h, .opened o' ms hl⟩

/-- Where a type may begin, a character that begins one is read as such. -/
theorem Ready.read_eq (h : Ready r bs ms) {c : Char} (hb : Text.isBlank c = false)
    (hc : c ≠ ']') : r.read c = r.readOperand c ∧ r.brackets = bs ∧ r.members = ms := by
  cases h with
  | operand o => exact ⟨by simp [read, hb], rfl, rfl⟩
  | opened o _ hl =>
    refine ⟨?_, rfl, rfl⟩
    have hl' : ¬ depthLimit ≤ bs.length := by omega
    simp only [read, hb, Bool.false_eq_true, if_false]
    unfold readFirstItem
    split
    · exact absurd rfl hc
    · simp [hl']

theorem Ready.read_bracket (h : Ready r bs ms) :
    ∃ o, Reads r ['['] ⟨o, ⟨none, ms, []⟩ :: bs, [], .opened⟩ := by
  obtain ⟨hr, rfl, rfl⟩ := h.read_eq (c := '[') (by decide) (by decide)
  exact reads_of_read (n := r.openBracket none) (hr.trans (by simp [readOperand]))

theorem Ready.read_dots (h : Ready r bs ms) :
    ∃ o, Reads r ['.', '.', '.'] ⟨o, bs, ms, .finished .ellipsis⟩ := by
  obtain ⟨hr, rfl, rfl⟩ := h.read_eq (c := '.') (by decide) (by decide)
  obtain ⟨o₁, h₁⟩ := reads_of_read (hr.trans (by rw [readOperand, if_neg (by decide), if_pos rfl]))
  obtain ⟨o₂, h₂⟩ := reads_of_read (r := ⟨o₁, r.brackets, r.members, .dots 1⟩) (c := '.')
    (n := ⟨o₁, r.brackets, r.members, .dots 2⟩) (by simp [read])
  obtain ⟨o₃, h₃⟩ := reads_of_read (r := ⟨o₂, r.brackets, r.members, .dots 2⟩) (c := '.')
    (n := ⟨o₂, r.brackets, r.members, .finished .ellipsis⟩) (by simp [read])
  exact ⟨o₃, h₁.cons (h₂.cons h₃)⟩

theorem reads_letters : ∀ (cs : List Char) (o : Nat) (letters : List Char),
    (∀ c ∈ cs, isWordChar c = true) →
      ∃ o', Reads ⟨o, bs, ms, .word letters⟩ cs ⟨o', bs, ms, .word (cs.reverse ++ letters)⟩
  | [], o, letters, _ => ⟨o, rfl⟩
  | c :: cs, o, letters, h => by
    obtain ⟨o₁, h₁⟩ := reads_of_read (r := ⟨o, bs, ms, .word letters⟩) (c := c)
      (n := ⟨o, bs, ms, .word (c :: letters)⟩) (by simp [read, h c List.mem_cons_self])
    obtain ⟨o₂, h₂⟩ := reads_letters cs o₁ (c :: letters) fun d hd =>
      h d (List.mem_cons_of_mem _ hd)
    refine ⟨o₂, h₁.cons ?_⟩
    simpa using h₂

theorem Ready.read_word (h : Ready r bs ms) (w : Grammar.Word) :
    ∃ o, Reads r w.chars ⟨o, bs, ms, .word w.chars.reverse⟩ := by
  obtain ⟨hb, hne, hk⟩ := w.kindOf_first
  obtain ⟨hr, rfl, rfl⟩ := h.read_eq hb hne
  have hread : r.readOperand w.first = .ok { r with phase := .word [w.first] } := by
    unfold Grammar.kindOf at hk
    split at hk
    · cases hk
    · split at hk
      · cases hk
      · split at hk
        · cases hk
        · rename_i h1 h2 h3
          rw [readOperand, if_neg h1, if_neg h2, if_neg h3,
            if_pos (isWordStart_iff.2 w.start)]
  obtain ⟨o₁, h₁⟩ := reads_of_read (hr.trans hread)
  obtain ⟨o₂, h₂⟩ := reads_letters w.rest o₁ [w.first] fun c hc =>
    isWordChar_iff.2 (w.more c hc)
  refine ⟨o₂, h₁.cons ?_⟩
  simpa [Grammar.Word.chars] using h₂

theorem reads_body {m : Char} {start : Nat} : ∀ (cs : List Char) (o : Nat) (body : List Char),
    m ∉ cs → ∃ o', Reads ⟨o, bs, ms, .quoted m start body⟩ cs
      ⟨o', bs, ms, .quoted m start (cs.reverse ++ body)⟩
  | [], o, body, _ => ⟨o, rfl⟩
  | c :: cs, o, body, h => by
    obtain ⟨hc, hcs⟩ := not_or.1 (fun hm => h (List.mem_cons.2 hm))
    obtain ⟨o₁, h₁⟩ := reads_of_read (r := ⟨o, bs, ms, .quoted m start body⟩) (c := c)
      (n := ⟨o, bs, ms, .quoted m start (c :: body)⟩) (by simp [read, Ne.symm hc])
    obtain ⟨o₂, h₂⟩ := reads_body cs o₁ (c :: body) hcs
    refine ⟨o₂, h₁.cons ?_⟩
    simpa using h₂

theorem Ready.read_quoted (h : Ready r bs ms) (q : Grammar.Quoted) :
    ∃ o, Reads r q.chars ⟨o, bs, ms, .finished (.forward q.text)⟩ := by
  obtain ⟨hb, hne, -⟩ := q.kindOf_mark
  obtain ⟨hr, rfl, rfl⟩ := h.read_eq hb hne
  have hread : r.readOperand q.mark = .ok { r with phase := .quoted q.mark r.offset [] } := by
    have h1 : q.mark ≠ '[' := by rcases q.isMark with h | h <;> rw [h] <;> decide
    have h2 : q.mark ≠ '.' := by rcases q.isMark with h | h <;> rw [h] <;> decide
    rw [readOperand, if_neg h1, if_neg h2, if_pos q.isMark]
  obtain ⟨o₁, h₁⟩ := reads_of_read (hr.trans hread)
  obtain ⟨o₂, h₂⟩ := reads_body q.body o₁ [] q.closed
  obtain ⟨o₃, h₃⟩ := reads_of_read
    (r := ⟨o₂, r.brackets, r.members, .quoted q.mark r.offset (q.body.reverse ++ [])⟩) (c := q.mark)
    (n := ⟨o₂, r.brackets, r.members, .finished (.forward q.text)⟩)
    (by simp [read, Grammar.Quoted.text, q.trims.trimBlanks_eq])
  exact ⟨o₃, h₁.cons (h₂.append h₃)⟩

/-! ## After a type -/

/-- After the letters of a name, blanks end the name and change nothing else. -/
theorem reads_after_letters (o : Nat) (bs : List Bracket) (ms : List TypeExpr) (letters : List Char)
    (s : Grammar.Blanks) :
    ∃ o' ph, Reads ⟨o, bs, ms, .word letters⟩ s.chars ⟨o', bs, ms, ph⟩ ∧
      (ph = .word letters ∨ ph = .named (String.ofList letters.reverse)) := by
  obtain ⟨_ | ⟨c, cs⟩, hs⟩ := s
  · exact ⟨o, _, rfl, .inl rfl⟩
  · have hc := hs c List.mem_cons_self
    have hw := isWordChar_of_isBlank hc
    obtain ⟨o₁, h₁⟩ := reads_of_read (r := ⟨o, bs, ms, .word letters⟩) (c := c)
      (n := ⟨o, bs, ms, .named (String.ofList letters.reverse)⟩)
      (by simp [read, hw, readAfterName, hc])
    obtain ⟨o₂, h₂⟩ := reads_blanks (r := ⟨o₁, bs, ms, .named (String.ofList letters.reverse)⟩)
      ⟨cs, fun d hd => hs d (List.mem_cons_of_mem _ hd)⟩
      fun _ d hd => by simp [read, readAfterName, hd]
    exact ⟨o₂, _, h₁.cons h₂, .inr rfl⟩

theorem After.read_blanks (h : After r bs ms e) (s : Grammar.Blanks) :
    ∃ r', Reads r s.chars r' ∧ After r' bs ms e := by
  cases h with
  | word o _ _ letters =>
    obtain ⟨o', ph, h, rfl | rfl⟩ := reads_after_letters o bs ms letters s
    · exact ⟨_, h, .word o' bs ms letters⟩
    · exact ⟨_, h, .named o' bs ms _⟩
  | named o _ _ n =>
    obtain ⟨o', h⟩ := reads_blanks (r := ⟨o, bs, ms, .named n⟩) s
      fun _ c hc => by simp [read, readAfterName, hc]
    exact ⟨_, h, .named o' bs ms n⟩
  | finished o _ _ e =>
    obtain ⟨o', h⟩ := reads_blanks (r := ⟨o, bs, ms, .finished e⟩) s
      fun _ c hc => by simp [read, hc]
    exact ⟨_, h, .finished o' bs ms e⟩

/-- A bracket after a name, with blanks between them, is applied to the name. -/
theorem reads_name_bracket (o : Nat) (bs : List Bracket) (ms : List TypeExpr) (letters : List Char)
    (s : Grammar.Blanks) :
    ∃ o', Reads ⟨o, bs, ms, .word letters⟩ (s.chars ++ ['['])
      ⟨o', ⟨some (String.ofList letters.reverse), ms, []⟩ :: bs, [], .opened⟩ := by
  have hblank : Text.isBlank '[' = false := by decide
  have hword : isWordChar '[' = false := by decide
  obtain ⟨o₁, ph, h₁, hph⟩ := reads_after_letters o bs ms letters s
  have hread : read ⟨o₁, bs, ms, ph⟩ '[' =
      .ok (openBracket ⟨o₁, bs, ms, ph⟩ (some (String.ofList letters.reverse))) := by
    rcases hph with rfl | rfl <;> simp [read, readAfterName, hblank, hword]
  obtain ⟨o₂, h₂⟩ := reads_of_read hread
  exact ⟨o₂, h₁.append h₂⟩

/-- A bracket that is applied to nothing may close at once, also where no item may begin in it. -/
theorem reads_empty_bracket (o : Nat) (bs : List Bracket) (ms : List TypeExpr)
    (s : Grammar.Blanks) :
    ∃ o', Reads ⟨o, ⟨none, ms, []⟩ :: bs, [], .opened⟩ (s.chars ++ [']'])
      ⟨o', bs, ms, .finished (.params [])⟩ := by
  have hblank : Text.isBlank ']' = false := by decide
  obtain ⟨o₁, h₁⟩ := reads_blanks (r := ⟨o, ⟨none, ms, []⟩ :: bs, [], .opened⟩) s
    fun _ c hc => by simp [read, hc]
  obtain ⟨o₂, h₂⟩ := reads_of_read (r := ⟨o₁, ⟨none, ms, []⟩ :: bs, [], .opened⟩) (c := ']')
    (n := ⟨o₁, bs, ms, .finished (.params [])⟩) (by simp [read, hblank, readFirstItem])
  exact ⟨o₂, h₁.append h₂⟩

/-- A character that is neither blank nor part of a name nor a bracket that opens is read the same
way in all phases after a type. -/
theorem After.read_eq (h : After r bs ms e) {c : Char} (hb : Text.isBlank c = false)
    (hw : isWordChar c = false) (hc : c ≠ '[') :
    r.read c = r.readAfter e c ∧ r.brackets = bs ∧ r.members = ms := by
  cases h with
  | word o _ _ letters => exact ⟨by simp [read, hw, readAfterName, hb, hc], rfl, rfl⟩
  | named o _ _ n => exact ⟨by simp [read, readAfterName, hb, hc], rfl, rfl⟩
  | finished o _ _ e => exact ⟨by simp [read, hb], rfl, rfl⟩

theorem After.read_bar (h : After r bs ms e) : ∃ r', Reads r ['|'] r' ∧ Ready r' bs (e :: ms) := by
  obtain ⟨hr, rfl, rfl⟩ := h.read_eq (c := '|') (by decide) (by decide) (by decide)
  obtain ⟨o, ho⟩ := reads_of_read (hr.trans (by rw [readAfter, if_pos rfl]))
  exact ⟨_, ho, .operand o _ _⟩

theorem After.read_comma {b : Bracket} (h : After r (b :: bs) ms e) :
    ∃ r', Reads r [','] r' ∧
      Ready r' ({ b with items := joined (e :: ms) :: b.items } :: bs) [] := by
  obtain ⟨hr, hbs, rfl⟩ := h.read_eq (c := ',') (by decide) (by decide) (by decide)
  obtain ⟨o, ho⟩ := reads_of_read (r := r) (c := ',')
    (n := ⟨r.offset, { b with items := joined (e :: r.members) :: b.items } :: bs, [], .operand⟩)
    (hr.trans (by simp [readAfter, hbs]))
  exact ⟨_, ho, .operand o _ _⟩

theorem After.read_close {b : Bracket} (h : After r (b :: bs) ms e) :
    ∃ o, Reads r [']'] ⟨o, bs, b.outer, .finished (b.close (joined (e :: ms) :: b.items))⟩ := by
  obtain ⟨hr, hbs, rfl⟩ := h.read_eq (c := ']') (by decide) (by decide) (by decide)
  exact reads_of_read (r := r) (c := ']')
    (n := ⟨r.offset, bs, b.outer, .finished (b.close (joined (e :: r.members) :: b.items))⟩)
    (hr.trans (by simp [readAfter, hbs]))

theorem After.finish_eq (h : After r [] ms e) : r.finish = .ok (joined (e :: ms)) := by
  cases h <;> rfl

/-- Members collected with the latest first stand for what they stand for in order. -/
theorem joined_reverse (es : List TypeExpr) : joined es.reverse = Grammar.joinMembers es := by
  rcases es with _ | ⟨a, _ | ⟨b, es⟩⟩
  · rfl
  · rfl
  · have hlen : (a :: b :: es).reverse.length = es.length + 2 := by simp
    rcases h : (a :: b :: es).reverse with _ | ⟨x, _ | ⟨y, l⟩⟩
    · simp [h] at hlen
    · simp [h] at hlen
    · show TypeExpr.applied "Union" (x :: y :: l).reverse = .applied "Union" (a :: b :: es)
      rw [← h, List.reverse_reverse]

end Reader

/-! ## Derivations -/

namespace Grammar

open Reader

theorem Union.levels_pos : ∀ u : Union, 0 < u.levels
  | .last p => by simp [Union.levels]
  | .bar p s u => by simp only [Union.levels]; omega

theorem Items.levels_pos (items : Items) : 0 < items.levels := by
  cases items with
  | last u s => exact u.levels_pos
  | comma u s items =>
    have hu := u.levels_pos
    simp only [Items.levels]
    omega

mutual
theorem Postfix.reads : ∀ (p : Postfix) {r : Reader} {bs : List Bracket} {ms : List TypeExpr},
    Ready r bs ms → bs.length + p.levels < depthLimit →
      ∃ r', Reads r p.chars r' ∧ After r' bs ms p.tree
  | .name s w, r, bs, ms, hr, _ => by
    obtain ⟨r₁, h₁, hr₁⟩ := hr.read_blanks s
    obtain ⟨o, h₂⟩ := hr₁.read_word w
    refine ⟨_, h₁.append h₂, ?_⟩
    have hafter := After.word o bs ms w.chars.reverse
    rwa [List.reverse_reverse] at hafter
  | .quoted s q, r, bs, ms, hr, _ => by
    obtain ⟨r₁, h₁, hr₁⟩ := hr.read_blanks s
    obtain ⟨o, h₂⟩ := hr₁.read_quoted q
    exact ⟨_, h₁.append h₂, .finished o bs ms _⟩
  | .dots s, r, bs, ms, hr, _ => by
    obtain ⟨r₁, h₁, hr₁⟩ := hr.read_blanks s
    obtain ⟨o, h₂⟩ := hr₁.read_dots
    exact ⟨_, h₁.append h₂, .finished o bs ms _⟩
  | .empty s t, r, bs, ms, hr, _ => by
    obtain ⟨r₁, h₁, hr₁⟩ := hr.read_blanks s
    obtain ⟨o₂, h₂⟩ := hr₁.read_bracket
    obtain ⟨o₃, h₃⟩ := reads_empty_bracket o₂ bs ms t
    exact ⟨_, h₁.append (h₂.cons h₃), .finished o₃ bs ms _⟩
  | .list s items, r, bs, ms, hr, hd => by
    have hpos := items.levels_pos
    simp only [Postfix.levels] at hd
    obtain ⟨r₁, h₁, hr₁⟩ := hr.read_blanks s
    obtain ⟨o₂, h₂⟩ := hr₁.read_bracket
    have hr₂ : Ready ⟨o₂, ⟨none, ms, []⟩ :: bs, [], .opened⟩ (⟨none, ms, []⟩ :: bs) [] :=
      .opened o₂ [] (by simp only [List.length_cons]; omega)
    obtain ⟨o₃, h₃⟩ := items.reads hr₂ (by omega)
    refine ⟨_, h₁.append (h₂.cons h₃), ?_⟩
    have hafter := After.finished o₃ bs ms (.params items.trees)
    simpa [Bracket.close, Postfix.tree] using hafter
  | .applied s w t items, r, bs, ms, hr, hd => by
    have hpos := items.levels_pos
    simp only [Postfix.levels] at hd
    obtain ⟨r₁, h₁, hr₁⟩ := hr.read_blanks s
    obtain ⟨o₂, h₂⟩ := hr₁.read_word w
    obtain ⟨o₃, h₃⟩ := reads_name_bracket o₂ bs ms w.chars.reverse t
    rw [List.reverse_reverse] at h₃
    have hr₃ : Ready ⟨o₃, ⟨some w.text, ms, []⟩ :: bs, [], .opened⟩ (⟨some w.text, ms, []⟩ :: bs)
        [] := .opened o₃ [] (by simp only [List.length_cons]; omega)
    obtain ⟨o₄, h₄⟩ := items.reads hr₃ (by omega)
    refine ⟨_, h₁.append (h₂.append (by simpa using h₃.append h₄)), ?_⟩
    have hafter := After.finished o₄ bs ms (.applied w.text items.trees)
    simpa [Bracket.close, Postfix.tree] using hafter

theorem Union.reads : ∀ (u : Union) {r : Reader} {bs : List Bracket} {ms : List TypeExpr},
    Ready r bs ms → bs.length + u.levels ≤ depthLimit →
      ∃ r' ms' e, Reads r u.chars r' ∧ After r' bs ms' e ∧ e :: ms' = u.members.reverse ++ ms
  | .last p, r, bs, ms, hr, hd => by
    simp only [Union.levels] at hd
    obtain ⟨r', h, ha⟩ := p.reads hr (by omega)
    exact ⟨r', ms, p.tree, h, ha, by simp [Union.members]⟩
  | .bar p s u, r, bs, ms, hr, hd => by
    simp only [Union.levels] at hd
    obtain ⟨r₁, h₁, ha₁⟩ := p.reads hr (by omega)
    obtain ⟨r₂, h₂, ha₂⟩ := ha₁.read_blanks s
    obtain ⟨r₃, h₃, hr₃⟩ := ha₂.read_bar
    obtain ⟨r₄, ms', e, h₄, ha₄, hms⟩ := u.reads hr₃ (by omega)
    refine ⟨r₄, ms', e, h₁.append (h₂.append (h₃.cons h₄)), ha₄, ?_⟩
    rw [hms]
    simp [Union.members]

theorem Items.reads : ∀ (items : Items) {r : Reader} {b : Bracket} {bs : List Bracket},
    Ready r (b :: bs) [] → bs.length + 1 + items.levels ≤ depthLimit →
      ∃ o, Reads r items.chars
        ⟨o, bs, b.outer, .finished (b.close (items.trees.reverse ++ b.items))⟩
  | .last u s, r, b, bs, hr, hd => by
    simp only [Items.levels] at hd
    obtain ⟨r₁, ms', e, h₁, ha₁, hms⟩ := u.reads hr (by simpa using hd)
    obtain ⟨r₂, h₂, ha₂⟩ := ha₁.read_blanks s
    obtain ⟨o, h₃⟩ := ha₂.read_close
    rw [hms, List.append_nil, joined_reverse] at h₃
    exact ⟨o, h₁.append (h₂.append h₃)⟩
  | .comma u s items, r, b, bs, hr, hd => by
    simp only [Items.levels] at hd
    obtain ⟨r₁, ms', e, h₁, ha₁, hms⟩ := u.reads hr (by simp only [List.length_cons]; omega)
    obtain ⟨r₂, h₂, ha₂⟩ := ha₁.read_blanks s
    obtain ⟨r₃, h₃, hr₃⟩ := ha₂.read_comma
    rw [hms, List.append_nil, joined_reverse] at hr₃
    obtain ⟨o, h₄⟩ := items.reads hr₃ (by omega)
    refine ⟨o, h₁.append (h₂.append (h₃.cons ?_))⟩
    simpa [Items.trees, Bracket.close] using h₄
end

theorem Derivation.parse_text (d : Derivation) (h : d.levels ≤ depthLimit) :
    TypeExpr.parse d.text = .ok d.tree := by
  obtain ⟨r₁, ms, e, h₁, ha₁, hms⟩ := d.union.reads (.operand 0 [] [])
    (by simpa [Derivation.levels] using h)
  obtain ⟨r₂, h₂, ha₂⟩ := ha₁.read_blanks d.trailing
  have hread : d.chars.foldlM step start = .ok r₂ := h₁.append h₂
  have hfinish := ha₂.finish_eq
  rw [hms, List.append_nil, joined_reverse] at hfinish
  rw [TypeExpr.parse, Derivation.text, String.toList_ofList, hread]
  exact hfinish

end Grammar

end CallGuard
