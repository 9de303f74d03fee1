import CallGuard.Proofs.Lists
import CallGuard.Text.Alphabetic
import CallGuard.Text.Numeric
import CallGuard.TypeExpr.Basic
import Mathlib.Data.List.TakeWhile

/-!
# The grammar of written types

A `Derivation` is a text taken apart by the grammar

    union   := postfix ('|' postfix)*
    postfix := name | quoted | '...' | '[' ']' | '[' items ']' | name '[' items ']'
    items   := union (',' union)*

where blanks may stand before every token and at the end, and a quoted name is what stands between
the quotation marks without the blanks at its ends (`Trims`). It holds every character of the text,
so the text is read off it (`chars`), and so are the expression it stands for (`tree`) and how deeply
unions are nested in it (`levels`). A text has at most one derivation (`Derivation.ext_chars`): a
part ends where a character that cannot go on with it stands, which is what `Ends` says of the rest.
-/

namespace CallGuard

namespace Text

def points (ranges : List (Nat × Nat)) : List Nat :=
  ranges.flatMap fun r => List.range' r.1 (r.2 + 1 - r.1)

theorem mem_points_of_inRanges {n : Nat} :
    ∀ {ranges : List (Nat × Nat)}, inRanges n ranges = true → n ∈ points ranges
  | [], h => by simp [inRanges] at h
  | (lo, hi) :: rest, h => by
    simp only [inRanges, Bool.and_eq_true, Bool.or_eq_true, decide_eq_true_eq] at h
    simp only [points, List.flatMap_cons, List.mem_append, List.mem_range'_1]
    rcases h with ⟨hlo, hhi | h⟩
    · exact .inl (by omega)
    · exact .inr (mem_points_of_inRanges h)

end Text

namespace Grammar

/-- The characters that a name may begin with. -/
def StartsWord (c : Char) : Prop := c = '_' ∨ Text.isAlphabetic c = true

/-- The characters that a name may go on with. -/
def InWord (c : Char) : Prop := StartsWord c ∨ Text.isNumeric c = true

instance : DecidablePred StartsWord := fun c => inferInstanceAs (Decidable (c = '_' ∨ _))

instance : DecidablePred InWord := fun c => inferInstanceAs (Decidable (StartsWord c ∨ _))

/-- No blank is part of a name. -/
theorem not_inWord_of_isBlank {c : Char} (h : Text.isBlank c = true) : ¬ InWord c := by
  have hall : ∀ n ∈ Text.points Text.blankRanges, Text.inRanges n Text.alphabeticRanges = false ∧
      Text.inRanges n Text.numericRanges = false ∧ n ≠ '_'.toNat := by decide +kernel
  obtain ⟨ha, hn, hu⟩ := hall c.toNat (Text.mem_points_of_inRanges h)
  rintro ((rfl | hc) | hc)
  · exact hu rfl
  · rw [Text.isAlphabetic, ha] at hc
    cases hc
  · rw [Text.isNumeric, hn] at hc
    cases hc

theorem InWord.not_isBlank {c : Char} (h : InWord c) : Text.isBlank c = false := by
  cases hb : Text.isBlank c
  · rfl
  · exact absurd h (not_inWord_of_isBlank hb)

/-- A run of blanks. -/
structure Blanks where
  chars : List Char
  blank : ∀ c ∈ chars, Text.isBlank c = true

/-- A name. -/
structure Word where
  first : Char
  rest : List Char
  start : StartsWord first
  more : ∀ c ∈ rest, InWord c

def Word.chars (w : Word) : List Char := w.first :: w.rest

def Word.text (w : Word) : String := String.ofList w.chars

/-- No blank stands at either end. -/
structure Bare (cs : List Char) : Prop where
  first : ∀ c ∈ cs.head?, Text.isBlank c = false
  last : ∀ c ∈ cs.getLast?, Text.isBlank c = false

/-- The text `name` is what is left of `cs` without the blanks at its ends. -/
structure Trims (cs name : List Char) : Prop extends Bare name where
  around : ∃ s t : Blanks, cs = s.chars ++ (name ++ t.chars)

/-- A text between two of the same quotation marks, and the name that it holds. -/
structure Quoted where
  mark : Char
  body : List Char
  name : List Char
  isMark : mark = '"' ∨ mark = '\''
  closed : mark ∉ body
  trims : Trims body name

def Quoted.chars (q : Quoted) : List Char := q.mark :: (q.body ++ [q.mark])

def Quoted.text (q : Quoted) : String := String.ofList q.name

mutual
/-- A member of a union, with the blanks before each of its tokens. -/
inductive Postfix where
  | name (s : Blanks) (w : Word)
  | quoted (s : Blanks) (q : Quoted)
  | dots (s : Blanks)
  | empty (s t : Blanks)
  | list (s : Blanks) (items : Items)
  | applied (s : Blanks) (w : Word) (t : Blanks) (items : Items)

/-- One member, or several with bars between them. -/
inductive Union where
  | last (p : Postfix)
  | bar (p : Postfix) (s : Blanks) (u : Union)

/-- What stands in a bracket, up to and with the bracket that closes it. -/
inductive Items where
  | last (u : Union) (s : Blanks)
  | comma (u : Union) (s : Blanks) (items : Items)
end

mutual
def Postfix.chars : Postfix → List Char
  | .name s w => s.chars ++ w.chars
  | .quoted s q => s.chars ++ q.chars
  | .dots s => s.chars ++ ['.', '.', '.']
  | .empty s t => s.chars ++ '[' :: (t.chars ++ [']'])
  | .list s items => s.chars ++ '[' :: items.chars
  | .applied s w t items => s.chars ++ (w.chars ++ (t.chars ++ '[' :: items.chars))

def Union.chars : Union → List Char
  | .last p => p.chars
  | .bar p s u => p.chars ++ (s.chars ++ '|' :: u.chars)

def Items.chars : Items → List Char
  | .last u s => u.chars ++ (s.chars ++ [']'])
  | .comma u s items => u.chars ++ (s.chars ++ ',' :: items.chars)
end

/-- The expression of the members of a union: one is itself, several are a `Union`. -/
def joinMembers : List TypeExpr → TypeExpr
  | [e] => e
  | es => .applied "Union" es

mutual
def Postfix.tree : Postfix → TypeExpr
  | .name _ w => .name w.text
  | .quoted _ q => .forward q.text
  | .dots _ => .ellipsis
  | .empty _ _ => .params []
  | .list _ items => .params items.trees
  | .applied _ w _ items => .applied w.text items.trees

def Union.members : Union → List TypeExpr
  | .last p => [p.tree]
  | .bar p _ u => p.tree :: u.members

def Items.trees : Items → List TypeExpr
  | .last u _ => [joinMembers u.members]
  | .comma u _ items => joinMembers u.members :: items.trees
end

def Union.tree (u : Union) : TypeExpr := joinMembers u.members

mutual
def Postfix.levels : Postfix → Nat
  | .name _ _ | .quoted _ _ | .dots _ | .empty _ _ => 0
  | .list _ items => items.levels
  | .applied _ _ _ items => items.levels

/-- How deeply unions are nested in a union, itself included. -/
def Union.levels : Union → Nat
  | .last p => p.levels + 1
  | .bar p _ u => max (p.levels + 1) u.levels

def Items.levels : Items → Nat
  | .last u _ => u.levels
  | .comma u _ items => max u.levels items.levels
end

/-- A whole text, taken apart. -/
structure Derivation where
  union : Union
  trailing : Blanks

namespace Derivation

def chars (d : Derivation) : List Char := d.union.chars ++ d.trailing.chars

def text (d : Derivation) : String := String.ofList d.chars

def tree (d : Derivation) : TypeExpr := d.union.tree

/-- How many unions stand around the innermost one, itself included. -/
def levels (d : Derivation) : Nat := d.union.levels

end Derivation

/-! ## Trimmed texts -/

section Trimmed

variable {cs name name' : List Char}

theorem Trims.trimBlanks_eq (h : Trims cs name) : Text.trimBlanks cs = name := by
  obtain ⟨⟨hfirst, hlast⟩, s, t, rfl⟩ := h
  rw [Text.trimBlanks, List.dropWhile_append_of_pos s.blank]
  rcases name with _ | ⟨c, cs⟩
  · rw [List.nil_append, List.dropWhile_eq_nil_iff.2 t.blank]
    rfl
  · have hfront : (c :: cs ++ t.chars).dropWhile Text.isBlank = c :: cs ++ t.chars :=
      List.dropWhile_eq_self_of_head? hfirst
    have hblank : ∀ c ∈ t.chars.reverse, Text.isBlank c = true := by simpa using t.blank
    have hback : (c :: cs).reverse.dropWhile Text.isBlank = (c :: cs).reverse :=
      List.dropWhile_eq_self_of_head? (by rwa [List.head?_reverse])
    rw [hfront, List.reverse_append, List.dropWhile_append_of_pos hblank, hback,
      List.reverse_reverse]

theorem trims_trimBlanks (cs : List Char) : Trims cs (Text.trimBlanks cs) := by
  obtain ⟨t, hdrop⟩ : ∃ t : Blanks, cs.dropWhile Text.isBlank = Text.trimBlanks cs ++ t.chars := by
    refine ⟨⟨((cs.dropWhile Text.isBlank).reverse.takeWhile Text.isBlank).reverse,
      fun c hc => List.mem_takeWhile_imp (List.mem_reverse.1 hc)⟩, ?_⟩
    rw [Text.trimBlanks, ← List.reverse_append, List.takeWhile_append_dropWhile,
      List.reverse_reverse]
  refine ⟨⟨fun c hc => ?_, fun c hc => ?_⟩,
    ⟨cs.takeWhile Text.isBlank, fun c => List.mem_takeWhile_imp⟩, t, ?_⟩
  · refine List.eq_false_of_mem_head?_dropWhile (l := cs) ?_
    rw [hdrop, List.head?_append, Option.mem_def.1 hc]
    rfl
  · rw [Text.trimBlanks, List.getLast?_reverse] at hc
    exact List.eq_false_of_mem_head?_dropWhile hc
  · rw [← hdrop, List.takeWhile_append_dropWhile]

/-- To trim a text is to remove blanks from its ends as long as there are any. -/
theorem trims_iff : Trims cs name ↔ Text.trimBlanks cs = name :=
  ⟨Trims.trimBlanks_eq, fun h => h ▸ trims_trimBlanks cs⟩

theorem Trims.unique (h : Trims cs name) (h' : Trims cs name') : name = name' :=
  (trims_iff.1 h).symm.trans (trims_iff.1 h')

end Trimmed

/-! ## Where a part ends -/

section Split

theorem Blanks.ext_chars {s t : Blanks} (h : s.chars = t.chars) : s = t := by
  cases s
  cases t
  cases h
  rfl

theorem Word.ext_chars {w v : Word} (h : w.chars = v.chars) : w = v := by
  cases w
  cases v
  simp only [Word.chars, List.cons.injEq] at h
  obtain ⟨rfl, rfl⟩ := h
  rfl

theorem blanks_append_inj {s t : Blanks} {c d : Char} {x y : List Char}
    (hc : Text.isBlank c = false) (hd : Text.isBlank d = false)
    (h : s.chars ++ c :: x = t.chars ++ d :: y) : s = t ∧ c = d ∧ x = y := by
  obtain ⟨hst, hxy⟩ := List.append_inj_of_class (P := fun e => Text.isBlank e = true)
    (by simp [hc]) (by simp [hd]) s.blank t.blank h
  exact ⟨Blanks.ext_chars hst, List.cons.inj hxy⟩

theorem Word.inWord (w : Word) : ∀ c ∈ w.chars, InWord c :=
  List.forall_mem_cons.2 ⟨.inl w.start, w.more⟩

/-- The rest `x` of a text goes on with blanks, and after them it is at its end or at one of the
characters `stops`. -/
def Ends (stops : List Char) (x : List Char) : Prop :=
  ∃ s : Blanks, x = s.chars ∨ ∃ c r, c ∈ stops ∧ x = s.chars ++ c :: r

/-- The characters that may stand after a member. -/
def afterPostfix : List Char := ['|', ',', ']']

def afterUnion : List Char := [',', ']']

theorem Ends.postfix {x : List Char} (h : Ends afterUnion x) : Ends afterPostfix x := by
  obtain ⟨s, h | ⟨c, r, hc, h⟩⟩ := h
  · exact ⟨s, .inl h⟩
  · exact ⟨s, .inr ⟨c, r, List.mem_cons_of_mem _ hc, h⟩⟩

theorem ends_append (s : Blanks) {stops : List Char} {c : Char} (hc : c ∈ stops) (r : List Char) :
    Ends stops (s.chars ++ c :: r) :=
  ⟨s, .inr ⟨c, r, hc, rfl⟩⟩

theorem isBlank_of_mem_afterPostfix {c : Char} (h : c ∈ afterPostfix) : Text.isBlank c = false := by
  simp only [afterPostfix, List.mem_cons, List.not_mem_nil, or_false] at h
  rcases h with rfl | rfl | rfl <;> decide

theorem not_inWord_of_mem_afterPostfix {c : Char} (h : c ∈ afterPostfix) : ¬ InWord c := by
  simp only [afterPostfix, List.mem_cons, List.not_mem_nil, or_false] at h
  rcases h with rfl | rfl | rfl <;> decide

/-- A rest that ends a member does not go on with a character that may not stand there. -/
theorem Ends.mem_of_eq {stops : List Char} (hs : ∀ d ∈ stops, Text.isBlank d = false)
    {x r : List Char} (h : Ends stops x) {t : Blanks} {c : Char} (hc : Text.isBlank c = false)
    (hx : x = t.chars ++ c :: r) : c ∈ stops := by
  obtain ⟨s, h | ⟨d, r', hd, h⟩⟩ := h
  · exfalso
    have hmem : c ∈ s.chars := by
      rw [← h, hx]
      simp
    rw [s.blank c hmem] at hc
    cases hc
  · obtain ⟨-, rfl, -⟩ := blanks_append_inj (hs d hd) hc (h.symm.trans hx)
    exact hd

theorem not_inWord_blanks_append {s : Blanks} {x : List Char} (hx : ∀ c ∈ x.head?, ¬ InWord c) :
    ∀ c ∈ (s.chars ++ x).head?, ¬ InWord c := by
  intro c h
  rcases hs : s.chars with _ | ⟨b, bs⟩ <;> rw [hs] at h
  · exact hx c h
  · obtain rfl : b = c := by simpa using h
    exact not_inWord_of_isBlank (s.blank b (hs ▸ List.mem_cons_self))

theorem Ends.not_inWord {x : List Char} (h : Ends afterPostfix x) :
    ∀ c ∈ x.head?, ¬ InWord c := by
  obtain ⟨s, rfl | ⟨d, r, hd, rfl⟩⟩ := h
  · rw [← List.append_nil s.chars]
    exact not_inWord_blanks_append (by simp)
  · exact not_inWord_blanks_append (by simpa using not_inWord_of_mem_afterPostfix hd)

end Split

/-! ## A text has one derivation -/

section Unique

def Postfix.lead : Postfix → Blanks
  | .name s _ | .quoted s _ | .dots s | .empty s _ | .list s _ | .applied s _ _ _ => s

/-- The characters of a member after the blanks before it. -/
def Postfix.body : Postfix → List Char
  | .name _ w => w.chars
  | .quoted _ q => q.chars
  | .dots _ => ['.', '.', '.']
  | .empty _ t => '[' :: (t.chars ++ [']'])
  | .list _ items => '[' :: items.chars
  | .applied _ w t items => w.chars ++ (t.chars ++ '[' :: items.chars)

/-- What kind of member begins with a character. -/
inductive Kind where
  | word | quote | dots | bracket
  deriving DecidableEq

def kindOf (c : Char) : Kind :=
  if c = '[' then .bracket
  else if c = '.' then .dots
  else if c = '"' ∨ c = '\'' then .quote
  else .word

def Postfix.kind : Postfix → Kind
  | .name _ _ | .applied _ _ _ _ => .word
  | .quoted _ _ => .quote
  | .dots _ => .dots
  | .empty _ _ | .list _ _ => .bracket

theorem Postfix.chars_eq (p : Postfix) : p.chars = p.lead.chars ++ p.body := by
  cases p <;> simp [Postfix.chars, Postfix.lead, Postfix.body]

theorem InWord.kindOf {c : Char} (h : InWord c) : kindOf c = .word := by
  have hne : ∀ d, ¬ InWord d → c ≠ d := by
    rintro d hd rfl
    exact hd h
  have h1 := hne '[' (by decide)
  have h2 := hne '.' (by decide)
  have h3 := hne '"' (by decide)
  have h4 := hne '\'' (by decide)
  simp [Grammar.kindOf, h1, h2, h3, h4]

theorem Quoted.kindOf_mark (q : Quoted) :
    Text.isBlank q.mark = false ∧ q.mark ≠ ']' ∧ kindOf q.mark = .quote := by
  rcases q.isMark with h | h <;> rw [h] <;> decide

theorem Word.kindOf_first (w : Word) :
    Text.isBlank w.first = false ∧ w.first ≠ ']' ∧ kindOf w.first = .word := by
  have hw := w.inWord w.first List.mem_cons_self
  refine ⟨hw.not_isBlank, ?_, hw.kindOf⟩
  intro h
  rw [h] at hw
  exact absurd hw (by decide)

/-- A member begins with a character of its kind, and never as a bracket closes. -/
theorem Postfix.body_eq_cons (p : Postfix) :
    ∃ c r, p.body = c :: r ∧ Text.isBlank c = false ∧ c ≠ ']' ∧ kindOf c = p.kind := by
  cases p with
  | name s w => exact ⟨w.first, w.rest, rfl, w.kindOf_first⟩
  | quoted s q => exact ⟨q.mark, q.body ++ [q.mark], rfl, q.kindOf_mark⟩
  | dots s => exact ⟨'.', ['.', '.'], rfl, by decide, by decide, by simp [kindOf, Postfix.kind]⟩
  | empty s t =>
    exact ⟨'[', t.chars ++ [']'], rfl, by decide, by decide, by simp [kindOf, Postfix.kind]⟩
  | list s items =>
    exact ⟨'[', items.chars, rfl, by decide, by decide, by simp [kindOf, Postfix.kind]⟩
  | applied s w t items => exact ⟨w.first, _, rfl, w.kindOf_first⟩

theorem Postfix.lead_eq_of_append {p q : Postfix} {x y : List Char}
    (h : p.chars ++ x = q.chars ++ y) :
    p.lead = q.lead ∧ p.kind = q.kind ∧ p.body ++ x = q.body ++ y := by
  obtain ⟨c, r, hp, hc, -, hpc⟩ := p.body_eq_cons
  obtain ⟨d, r', hq, hd, -, hqd⟩ := q.body_eq_cons
  rw [p.chars_eq, q.chars_eq, hp, hq, List.append_assoc, List.append_assoc] at h
  obtain ⟨hl, rfl, hr⟩ := blanks_append_inj hc hd h
  rw [hp, hq]
  exact ⟨hl, hpc.symm.trans hqd, by simpa using hr⟩

/-- Items never begin as a bracket closes. -/
theorem Items.chars_ne_close (items : Items) (t : Blanks) (x y : List Char) :
    items.chars ++ x ≠ t.chars ++ ']' :: y := by
  have hunion : ∀ u : Union, ∃ (p : Postfix) (z : List Char), u.chars = p.chars ++ z := by
    intro u
    cases u with
    | last p => exact ⟨p, [], by simp [Union.chars]⟩
    | bar p s u => exact ⟨p, _, rfl⟩
  have hitems : ∃ (p : Postfix) (z : List Char), items.chars = p.chars ++ z := by
    cases items with
    | last u s =>
      obtain ⟨p, z, h⟩ := hunion u
      exact ⟨p, z ++ (s.chars ++ [']']), by rw [Items.chars, h, List.append_assoc]⟩
    | comma u s items =>
      obtain ⟨p, z, h⟩ := hunion u
      exact ⟨p, z ++ (s.chars ++ ',' :: items.chars), by rw [Items.chars, h, List.append_assoc]⟩
  intro h
  obtain ⟨p, z, hz⟩ := hitems
  obtain ⟨c, r, hp, hc, hne, -⟩ := p.body_eq_cons
  rw [hz, p.chars_eq, hp, List.append_assoc, List.append_assoc, List.cons_append] at h
  obtain ⟨-, hclose, -⟩ := blanks_append_inj hc (by decide) h
  exact hne hclose

theorem Word.append_inj {w v : Word} {x y : List Char} (hx : ∀ c ∈ x.head?, ¬ InWord c)
    (hy : ∀ c ∈ y.head?, ¬ InWord c) (h : w.chars ++ x = v.chars ++ y) : w = v ∧ x = y := by
  obtain ⟨hwv, hxy⟩ := List.append_inj_of_class hx hy w.inWord v.inWord h
  exact ⟨Word.ext_chars hwv, hxy⟩

theorem Quoted.append_inj {q r : Quoted} {x y : List Char} (h : q.chars ++ x = r.chars ++ y) :
    q = r ∧ x = y := by
  obtain ⟨m, b, n, hm, hb, hn⟩ := q
  obtain ⟨m', b', n', hm', hb', hn'⟩ := r
  simp only [Quoted.chars, List.cons_append, List.cons.injEq, List.append_assoc,
    List.nil_append] at h
  obtain ⟨rfl, h⟩ := h
  have hbody : ∀ {as : List Char}, m ∉ as → ∀ c ∈ as, c ≠ m := by
    rintro as has c hc rfl
    exact has hc
  obtain ⟨rfl, hxy⟩ := List.append_inj_of_class (P := fun c => c ≠ m) (by simp) (by simp)
    (hbody hb) (hbody hb') h
  obtain rfl : n = n' := hn.unique hn'
  exact ⟨rfl, (List.cons.inj hxy).2⟩

theorem not_inWord_bracket (t : Blanks) (x : List Char) :
    ∀ c ∈ (t.chars ++ '[' :: x).head?, ¬ InWord c :=
  not_inWord_blanks_append (by simpa using (by decide : ¬ InWord '['))

theorem Ends.ne_bracket {x : List Char} (h : Ends afterPostfix x) (t : Blanks) (r : List Char) :
    x ≠ t.chars ++ '[' :: r := by
  intro hx
  have hmem := h.mem_of_eq (fun d hd => isBlank_of_mem_afterPostfix hd) (by decide) hx
  exact absurd hmem (by decide)

theorem Ends.ne_bar {x : List Char} (h : Ends afterUnion x) (t : Blanks) (r : List Char) :
    x ≠ t.chars ++ '|' :: r := by
  intro hx
  have hmem := h.mem_of_eq
    (fun d hd => isBlank_of_mem_afterPostfix (List.mem_cons_of_mem _ hd)) (by decide) hx
  exact absurd hmem (by decide)

mutual
theorem Postfix.append_inj : ∀ (p q : Postfix) {x y : List Char}, Ends afterPostfix x →
    Ends afterPostfix y → p.chars ++ x = q.chars ++ y → p = q ∧ x = y
  | .name s w, q, x, y, hx, hy, h => by
    obtain ⟨hl, hs, hb⟩ := Postfix.lead_eq_of_append h
    cases q <;> simp only [Postfix.kind, reduceCtorEq] at hs
    case name s' v =>
      obtain ⟨rfl, rfl⟩ := Word.append_inj hx.not_inWord hy.not_inWord hb
      cases hl
      exact ⟨rfl, rfl⟩
    case applied s' v t items =>
      simp only [Postfix.body, List.append_assoc, List.cons_append] at hb
      obtain ⟨-, hx'⟩ := Word.append_inj hx.not_inWord (not_inWord_bracket t _) hb
      exact absurd hx' (hx.ne_bracket t _)
  | .quoted s r, q, x, y, hx, hy, h => by
    obtain ⟨hl, hs, hb⟩ := Postfix.lead_eq_of_append h
    cases q <;> simp only [Postfix.kind, reduceCtorEq] at hs
    case quoted s' r' =>
      obtain ⟨rfl, rfl⟩ := Quoted.append_inj hb
      cases hl
      exact ⟨rfl, rfl⟩
  | .dots s, q, x, y, hx, hy, h => by
    obtain ⟨hl, hs, hb⟩ := Postfix.lead_eq_of_append h
    cases q <;> simp only [Postfix.kind, reduceCtorEq] at hs
    case dots s' =>
      cases hl
      exact ⟨rfl, by simpa [Postfix.body] using hb⟩
  | .empty s t, q, x, y, hx, hy, h => by
    obtain ⟨hl, hs, hb⟩ := Postfix.lead_eq_of_append h
    cases q <;> simp only [Postfix.kind, reduceCtorEq] at hs
    case empty s' t' =>
      simp only [Postfix.body, List.cons_append, List.append_assoc, List.nil_append,
        List.cons.injEq, true_and] at hb
      obtain ⟨rfl, -, rfl⟩ := blanks_append_inj (by decide) (by decide) hb
      cases hl
      exact ⟨rfl, rfl⟩
    case list s' items =>
      simp only [Postfix.body, List.cons_append, List.append_assoc, List.nil_append,
        List.cons.injEq, true_and] at hb
      exact absurd hb.symm (items.chars_ne_close t y x)
  | .list s items, q, x, y, hx, hy, h => by
    obtain ⟨hl, hs, hb⟩ := Postfix.lead_eq_of_append h
    cases q <;> simp only [Postfix.kind, reduceCtorEq] at hs
    case empty s' t' =>
      simp only [Postfix.body, List.cons_append, List.append_assoc, List.nil_append,
        List.cons.injEq, true_and] at hb
      exact absurd hb (items.chars_ne_close t' x y)
    case list s' items' =>
      simp only [Postfix.body, List.cons_append, List.cons.injEq, true_and] at hb
      obtain ⟨rfl, rfl⟩ := Items.append_inj items items' hb
      cases hl
      exact ⟨rfl, rfl⟩
  | .applied s w t items, q, x, y, hx, hy, h => by
    obtain ⟨hl, hs, hb⟩ := Postfix.lead_eq_of_append h
    cases q <;> simp only [Postfix.kind, reduceCtorEq] at hs
    case name s' v =>
      simp only [Postfix.body, List.append_assoc, List.cons_append] at hb
      obtain ⟨-, hy'⟩ := Word.append_inj (not_inWord_bracket t _) hy.not_inWord hb
      exact absurd hy'.symm (hy.ne_bracket t _)
    case applied s' v t' items' =>
      simp only [Postfix.body, List.append_assoc, List.cons_append] at hb
      obtain ⟨rfl, ht⟩ :=
        Word.append_inj (not_inWord_bracket t _) (not_inWord_bracket t' _) hb
      obtain ⟨rfl, -, hitems⟩ := blanks_append_inj (by decide) (by decide) ht
      obtain ⟨rfl, rfl⟩ := Items.append_inj items items' hitems
      cases hl
      exact ⟨rfl, rfl⟩

theorem Union.append_inj : ∀ (u v : Union) {x y : List Char}, Ends afterUnion x →
    Ends afterUnion y → u.chars ++ x = v.chars ++ y → u = v ∧ x = y
  | .last p, v, x, y, hx, hy, h => by
    cases v with
    | last q =>
      obtain ⟨rfl, rfl⟩ := Postfix.append_inj p q hx.postfix hy.postfix h
      exact ⟨rfl, rfl⟩
    | bar q s v =>
      simp only [Union.chars, List.append_assoc, List.cons_append] at h
      obtain ⟨-, hx'⟩ := Postfix.append_inj p q hx.postfix (ends_append s (by decide) _) h
      exact absurd hx' (hx.ne_bar s _)
  | .bar p s u, v, x, y, hx, hy, h => by
    cases v with
    | last q =>
      simp only [Union.chars, List.append_assoc, List.cons_append] at h
      obtain ⟨-, hy'⟩ := Postfix.append_inj p q (ends_append s (by decide) _) hy.postfix h
      exact absurd hy'.symm (hy.ne_bar s _)
    | bar q t v =>
      simp only [Union.chars, List.append_assoc, List.cons_append] at h
      obtain ⟨rfl, hs⟩ :=
        Postfix.append_inj p q (ends_append s (by decide) _) (ends_append t (by decide) _) h
      obtain ⟨rfl, -, hu⟩ := blanks_append_inj (by decide) (by decide) hs
      obtain ⟨rfl, rfl⟩ := Union.append_inj u v hx hy hu
      exact ⟨rfl, rfl⟩

theorem Items.append_inj : ∀ (a b : Items) {x y : List Char}, a.chars ++ x = b.chars ++ y →
    a = b ∧ x = y
  | .last u s, b, x, y, h => by
    cases b with
    | last v t =>
      simp only [Items.chars, List.append_assoc, List.cons_append, List.nil_append] at h
      obtain ⟨rfl, hs⟩ :=
        Union.append_inj u v (ends_append s (by decide) _) (ends_append t (by decide) _) h
      obtain ⟨rfl, -, rfl⟩ := blanks_append_inj (by decide) (by decide) hs
      exact ⟨rfl, rfl⟩
    | comma v t b =>
      simp only [Items.chars, List.append_assoc, List.cons_append, List.nil_append] at h
      obtain ⟨-, hs⟩ :=
        Union.append_inj u v (ends_append s (by decide) _) (ends_append t (by decide) _) h
      obtain ⟨-, hc, -⟩ := blanks_append_inj (by decide) (by decide) hs
      exact absurd hc (by decide)
  | .comma u s a, b, x, y, h => by
    cases b with
    | last v t =>
      simp only [Items.chars, List.append_assoc, List.cons_append, List.nil_append] at h
      obtain ⟨-, hs⟩ :=
        Union.append_inj u v (ends_append s (by decide) _) (ends_append t (by decide) _) h
      obtain ⟨-, hc, -⟩ := blanks_append_inj (by decide) (by decide) hs
      exact absurd hc (by decide)
    | comma v t b =>
      simp only [Items.chars, List.append_assoc, List.cons_append] at h
      obtain ⟨rfl, hs⟩ :=
        Union.append_inj u v (ends_append s (by decide) _) (ends_append t (by decide) _) h
      obtain ⟨rfl, -, hitems⟩ := blanks_append_inj (by decide) (by decide) hs
      obtain ⟨rfl, rfl⟩ := Items.append_inj a b hitems
      exact ⟨rfl, rfl⟩
end

theorem Derivation.ext_chars {d e : Derivation} (h : d.chars = e.chars) : d = e := by
  obtain ⟨u, s⟩ := d
  obtain ⟨v, t⟩ := e
  obtain ⟨rfl, hst⟩ := Union.append_inj u v ⟨s, .inl rfl⟩ ⟨t, .inl rfl⟩ h
  rw [Blanks.ext_chars hst]

end Unique

end Grammar

end CallGuard
