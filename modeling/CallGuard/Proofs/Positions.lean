import CallGuard.Proofs.Stopping

/-!
# Positions in a text

A reader counts bytes, and a count is of use only if it stands at the boundary of a character. It
does, because it is always the size of the text that was read (`Reader.Located`). What errors say of
the text before them is said without a reader: `leftOpen` is what a text leaves open, and every
character that is read changes it as it changes the brackets and quotation marks that the reader holds
(`Reader.read_heldOpen`).
-/

namespace CallGuard

/-! ## Slices -/

namespace Text

/-- `part` is what stands in `src` from the byte `first` up to the byte `last`, where both are
boundaries of characters. -/
structure IsSlice (src : String) (first last : Nat) (part : String) : Prop where
  first_isValid : String.Pos.Raw.IsValid src ⟨first⟩
  last_isValid : String.Pos.Raw.IsValid src ⟨last⟩
  bytes : src.toByteArray.extract first last = part.toByteArray

theorem isValid_of_append (before after : String) :
    String.Pos.Raw.IsValid (before ++ after) ⟨before.utf8ByteSize⟩ :=
  String.Pos.Raw.isValid_iff_exists_append.2 ⟨before, after, rfl, rfl⟩

theorem isSlice_of_append (before part after : String) :
    IsSlice (before ++ part ++ after) before.utf8ByteSize (before ++ part).utf8ByteSize part where
  first_isValid := by
    rw [String.append_assoc]
    exact isValid_of_append before (part ++ after)
  last_isValid := isValid_of_append (before ++ part) after
  bytes := by
    rw [String.toByteArray_append, ← String.size_toByteArray (s := before ++ part),
      ByteArray.extract_append_size_left, String.toByteArray_append]
    exact ByteArray.extract_append_eq_right String.size_toByteArray.symm (by simp)

/-- A run of characters of a text is a slice of it. -/
theorem isSlice_of_toList {src : String} {first last : Nat} (before part after : List Char)
    (hsrc : src.toList = before ++ (part ++ after))
    (hfirst : first = (String.ofList before).utf8ByteSize)
    (hlast : last = first + (String.ofList part).utf8ByteSize) :
    IsSlice src first last (String.ofList part) := by
  have hslice := isSlice_of_append (String.ofList before) (String.ofList part) (String.ofList after)
  rw [String.append_assoc, ← String.ofList_append, ← String.ofList_append, ← hsrc,
    String.ofList_toList, String.utf8ByteSize_append, ← hfirst, ← hlast] at hslice
  exact hslice

end Text

/-! ## What a text leaves open -/

/-- The mark of the quoted name in which a text ends, if it does so, and how many of its brackets
are opened and not closed. -/
structure LeftOpen where
  quote : Option Char
  brackets : Nat

/-- What one more character makes of it. A mark ends the quoted name that it began, and nothing else
counts before that. -/
def LeftOpen.next (l : LeftOpen) (c : Char) : LeftOpen :=
  match l.quote with
  | some mark => if c = mark then { l with quote := none } else l
  | none =>
    if c = '"' ∨ c = '\'' then { l with quote := some c }
    else if c = '[' then { l with brackets := l.brackets + 1 }
    else if c = ']' then { l with brackets := l.brackets - 1 }
    else l

/-- What a text leaves open. -/
def leftOpen (text : List Char) : LeftOpen := text.foldl LeftOpen.next ⟨none, 0⟩

theorem LeftOpen.next_of_not_mem {c : Char} (h : c ∉ delimiters) (n : Nat) :
    (LeftOpen.mk none n).next c = ⟨none, n⟩ := by
  simp only [delimiters, List.mem_cons, List.not_mem_nil, or_false, not_or] at h
  obtain ⟨h1, h2, h3, h4⟩ := h
  simp [next, h1, h2, h3, h4]

namespace Reader

variable {r n : Reader} {c : Char}

/-- What the reader holds open. -/
def heldOpen (r : Reader) : LeftOpen := ⟨r.phase.quote?, r.brackets.length⟩

/-- A character that is read changes what the reader holds open as it changes what the text leaves
open. -/
theorem read_heldOpen (h : r.read c = .ok n) : n.heldOpen = r.heldOpen.next c := by
  have hmoves := moves_read r c
  rw [h] at hmoves
  cases hmoves with
  | opens char outside next brackets =>
    subst char
    rw [heldOpen, heldOpen, outside, next, brackets]
    rfl
  | closes char outside next brackets =>
    subst char
    rw [heldOpen, heldOpen, outside, next, brackets]
    rfl
  | passes char outside next brackets =>
    rw [heldOpen, heldOpen, outside, next, brackets, LeftOpen.next_of_not_mem char]
  | begins char outside =>
    rw [heldOpen, heldOpen, outside]
    simp [LeftOpen.next, char, Phase.quote?]
  | continues phase char =>
    rw [heldOpen, heldOpen, phase]
    simp [LeftOpen.next, char, Phase.quote?]
  | ends phase next =>
    rw [heldOpen, heldOpen, phase, next]
    simp [LeftOpen.next, Phase.quote?]

/-! ## Where a reader stands -/

/-- A quoted name has just begun or has gone on by one character. -/
theorem read_quoted {mark : Char} {start : Nat} {body : List Char} (h : r.read c = .ok n)
    (hq : n.phase = .quoted mark start body) :
    (mark = c ∧ start = r.offset ∧ body = []) ∨
      ∃ b, r.phase = .quoted mark start b ∧ body = c :: b := by
  have hquote : n.phase.quote? = some mark := by rw [hq, Phase.quote?]
  have hmoves := moves_read r c
  rw [h] at hmoves
  cases hmoves with
  | opens char outside next brackets => simp [next] at hquote
  | closes char outside next brackets => simp [next] at hquote
  | passes char outside next brackets => simp [next] at hquote
  | begins char outside =>
    cases hq
    exact .inl ⟨rfl, rfl, rfl⟩
  | continues phase char =>
    cases hq
    exact .inr ⟨_, phase, rfl⟩
  | ends phase next => simp [next] at hquote

/-- After the text `cs`, the reader has counted its bytes, knows where a quoted name began, and holds
open what the text leaves open. -/
structure Located (cs : List Char) (r : Reader) : Prop where
  offset : r.offset = (String.ofList cs).utf8ByteSize
  quoted : ∀ mark start body, r.phase = .quoted mark start body →
    r.offset = start + mark.utf8Size + (String.ofList body.reverse).utf8ByteSize
  heldOpen : r.heldOpen = leftOpen cs

theorem Located.read {cs : List Char} (h : Located cs r) (hn : r.read c = .ok n) :
    Located (cs ++ [c]) { n with offset := r.offset + c.utf8Size } where
  offset := by
    simp [h.offset, String.ofList_append]
  quoted := by
    intro mark start body hq
    rcases read_quoted hn hq with ⟨rfl, rfl, rfl⟩ | ⟨b, hb, rfl⟩
    · simp
    · have hoffset := h.quoted mark start b hb
      simp [hoffset, String.ofList_append]
      omega
  heldOpen := by
    show n.heldOpen = _
    rw [read_heldOpen hn, h.heldOpen, leftOpen, leftOpen, List.foldl_append]
    rfl

theorem located_of_reads {cs : List Char} (h : Reads start cs r) : Located cs r := by
  have hstart : Located [] start := ⟨by simp [start], by simp [start], rfl⟩
  exact Reads.invariant (P := Located) Located.read hstart h

end Reader

namespace Grammar

open Reader

variable {r : Reader} {cs : List Char}

theorem InPhase.depth_lt {d : Nat} {ph : Phase} (h : InPhase d ph cs) : d < depthLimit := by
  cases h with
  | operand s hd => exact hd
  | oneDot s hd => exact hd
  | twoDots s hd => exact hd
  | quoted s start hd => exact hd
  | word s w hd => exact hd
  | named s w t hd => exact hd
  | finished p t hp => omega

/-- There are never more brackets open than the limit. -/
theorem Stands.brackets_le (h : Stands r cs) : r.brackets.length ≤ depthLimit := by
  cases h with
  | inside o hb hm hp => exact Nat.le_of_lt hp.depth_lt
  | opened o hb hm hh t hd => exact hd

theorem Stands.word (h : Stands r cs) {letters : List Char} (hphase : r.phase = .word letters) :
    ∃ lead, cs = lead ++ letters.reverse := by
  cases h with
  | opened => cases hphase
  | @inside o bs ms ph before mid last hb hm hp =>
    cases hp with
    | word s w hd =>
      cases hphase
      exact ⟨before ++ (mid ++ s.chars), by simp⟩
    | _ => cases hphase

theorem Stands.quoted (h : Stands r cs) {mark : Char} {start : Nat} {body : List Char}
    (hphase : r.phase = .quoted mark start body) :
    ∃ lead, cs = lead ++ mark :: body.reverse ∧ (mark = '"' ∨ mark = '\'') ∧ mark ∉ body := by
  cases h with
  | opened => cases hphase
  | @inside o bs ms ph before mid last hb hm hp =>
    cases hp with
    | quoted s start hd hmark hbody =>
      cases hphase
      exact ⟨before ++ (mid ++ s.chars), by simp, hmark, by simpa using hbody⟩
    | _ => cases hphase

/-- A reader that has not begun a type has read blanks. -/
theorem Stands.blank (h : Stands r cs) (hphase : r.phase = .operand) (hbrackets : r.brackets = [])
    (hmembers : r.members = []) : ∀ c ∈ cs, Text.isBlank c = true := by
  cases h with
  | opened => cases hphase
  | @inside o bs ms ph before mid last hb hm hp =>
    cases hbrackets
    cases hmembers
    cases hb
    cases hm
    cases hp with
    | operand s hd => exact s.blank
    | _ => cases hphase

end Grammar

namespace Reader

open Text

variable {r : Reader} {src : String} {before after : List Char}

/-- Whatever a reader takes from a text is cut out of it at boundaries of characters: the rest `after`
that it has not read, the name that it is in, and the quoted name that it is in. -/
structure CutsFrom (src : String) (after : List Char) (r : Reader) : Prop where
  rest : IsSlice src r.offset src.utf8ByteSize (String.ofList after)
  word : ∀ letters, r.phase = .word letters →
    ∃ first, IsSlice src first r.offset (String.ofList letters.reverse)
  quoted : ∀ mark start body, r.phase = .quoted mark start body →
    IsSlice src (start + mark.utf8Size) r.offset (String.ofList body.reverse)

/-- A quoted name began at its mark. -/
theorem Reads.quoted (h : Reads start before r) {mark : Char} {first : Nat} {body : List Char}
    (hphase : r.phase = .quoted mark first body) :
    ∃ lead, before = lead ++ mark :: body.reverse ∧ first = (String.ofList lead).utf8ByteSize ∧
      (mark = '"' ∨ mark = '\'') ∧ mark ∉ body := by
  obtain ⟨lead, rfl, hmark, hbody⟩ := (Grammar.stands_of_reads h).quoted hphase
  refine ⟨lead, rfl, ?_, hmark, hbody⟩
  have hlocated := located_of_reads h
  have hoffset := hlocated.offset
  have hquoted := hlocated.quoted mark first body hphase
  simp only [String.ofList_append, String.ofList_cons, String.utf8ByteSize_append,
    String.utf8ByteSize_singleton] at hoffset
  omega

theorem Reads.offset_eq (h : Reads start src.toList r) : r.offset = src.utf8ByteSize := by
  rw [(located_of_reads h).offset, String.ofList_toList]

theorem utf8ByteSize_of_toList (hsrc : src.toList = before ++ after) :
    src.utf8ByteSize = (String.ofList before).utf8ByteSize + (String.ofList after).utf8ByteSize := by
  rw [← String.ofList_toList (s := src), hsrc, String.ofList_append, String.utf8ByteSize_append]

theorem Reads.cutsFrom (hsrc : src.toList = before ++ after) (h : Reads start before r) :
    CutsFrom src after r where
  rest := by
    have hoffset := (located_of_reads h).offset
    refine isSlice_of_toList before after [] (by simpa using hsrc) hoffset ?_
    rw [hoffset, utf8ByteSize_of_toList hsrc]
  word := by
    intro letters hphase
    obtain ⟨lead, rfl⟩ := (Grammar.stands_of_reads h).word hphase
    refine ⟨_, isSlice_of_toList lead letters.reverse after (by simpa using hsrc) rfl ?_⟩
    rw [(located_of_reads h).offset, String.ofList_append, String.utf8ByteSize_append]
  quoted := by
    intro mark first body hphase
    obtain ⟨lead, rfl, rfl, -, -⟩ := h.quoted hphase
    refine isSlice_of_toList (lead ++ [mark]) body.reverse after (by simpa using hsrc) ?_
      ((located_of_reads h).quoted _ _ _ hphase)
    simp [String.ofList_append]

/-- One character too many is refused in an open bracket, as is the end of the text there. -/
theorem parse_tooDeep {offset : Nat} (h : TypeExpr.parse src = .error (.tooDeep offset)) :
    ∃ before after r, src.toList = before ++ after ∧ Reads start before r ∧ offset = r.offset ∧
      r.phase = .opened ∧ depthLimit ≤ r.brackets.length := by
  rcases parse_error_cases h with ⟨before, c, after, r, hsrc, hr, hc⟩ | ⟨r, hr, hfinish⟩
  · rcases read_error hc with ⟨expected, herr⟩ | ⟨herr, hphase, hlimit⟩ <;> cases herr
    exact ⟨before, c :: after, r, hsrc, hr, rfl, hphase, hlimit⟩
  · cases finish_error hfinish with
    | tooDeep hphase hlimit => exact ⟨src.toList, [], r, by simp, hr, rfl, hphase, hlimit⟩

theorem parse_empty_iff :
    TypeExpr.parse src = .error .empty ↔ ∀ c ∈ src.toList, Text.isBlank c = true := by
  constructor
  · intro h
    obtain ⟨r, hr, hfinish⟩ := parse_unfinished h .empty
    cases finish_error hfinish with
    | empty hphase hbrackets hmembers =>
      exact (Grammar.stands_of_reads hr).blank hphase hbrackets hmembers
  · intro h
    obtain ⟨o, hreads⟩ := reads_blanks (r := start) ⟨src.toList, h⟩
      fun _ c hc => by simp [start, read, hc]
    exact parse_of_reads hreads

end Reader

open Reader Text in
/-- Errors point at their cause, in bytes, whatever characters the text has. A character that is not
expected stands at its offset, and the end of the text at that of the text. An unterminated quoted name
begins at its offset with a mark that does not come again. Where brackets are nested too deeply, there
are 128 of them open, outside quoted names, in the text before the offset. A text is empty exactly if
it is blank. All offsets are boundaries of characters, and so are those at which a reader cuts the
text, after whatever part of it. -/
theorem parse_errors_point_at_their_cause (src : String) :
    (∀ found offset expected, TypeExpr.parse src = .error (.unexpected found offset expected) →
      IsSlice src offset (offset + found.utf8Size) (.singleton found)) ∧
    (∀ offset expected, TypeExpr.parse src = .error (.unexpectedEnd offset expected) →
      offset = src.utf8ByteSize) ∧
    (∀ offset, TypeExpr.parse src = .error (.unterminated offset) →
      ∃ mark rest, (mark = '"' ∨ mark = '\'') ∧
        IsSlice src offset (offset + mark.utf8Size) (.singleton mark) ∧
        IsSlice src (offset + mark.utf8Size) src.utf8ByteSize rest ∧ mark ∉ rest.toList) ∧
    (∀ offset, TypeExpr.parse src = .error (.tooDeep offset) →
      (SyntaxError.tooDeep offset).message =
        "type expression nested deeper than 128 levels at offset " ++ toString offset ∧
      ∃ before, IsSlice src 0 offset before ∧ leftOpen before.toList = ⟨none, 128⟩) ∧
    (TypeExpr.parse src = .error .empty ↔ ∀ c ∈ src.toList, isBlank c = true) ∧
    ∀ before after r, src.toList = before ++ after → Reads start before r → CutsFrom src after r := by
  refine ⟨fun found offset expected h => ?_, fun offset expected h => ?_, fun offset h => ?_,
    fun offset h => ⟨?_, ?_⟩, parse_empty_iff, fun before after r => Reads.cutsFrom⟩
  · obtain ⟨before, after, r, hsrc, hr, rfl, -⟩ := parse_unexpected h
    rw [String.singleton_eq_ofList]
    exact isSlice_of_toList before [found] after hsrc (located_of_reads hr).offset (by simp)
  · obtain ⟨r, hr, hfinish⟩ := parse_unfinished h (.unexpectedEnd offset expected)
    cases finish_error hfinish with
    | unexpectedEnd => exact hr.offset_eq
  · obtain ⟨r, hr, hfinish⟩ := parse_unfinished h (.unterminated offset)
    cases finish_error hfinish with
    | @unterminated mark _ body hphase =>
      obtain ⟨lead, hsrc, hfirst, hmark, hbody⟩ := hr.quoted hphase
      refine ⟨mark, String.ofList body.reverse, hmark, ?_, ?_, by simpa using hbody⟩
      · rw [String.singleton_eq_ofList]
        exact isSlice_of_toList lead [mark] body.reverse hsrc hfirst (by simp)
      · rw [← hr.offset_eq]
        exact (Reads.cutsFrom (List.append_nil _).symm hr).quoted mark offset body hphase
  · rfl
  · obtain ⟨before, after, r, hsrc, hr, rfl, hphase, hlimit⟩ := parse_tooDeep h
    have hlocated := located_of_reads hr
    have hdepth : r.brackets.length = depthLimit :=
      Nat.le_antisymm (Grammar.stands_of_reads hr).brackets_le hlimit
    refine ⟨String.ofList before,
      isSlice_of_toList [] before after hsrc (by simp) (by simp [hlocated.offset]), ?_⟩
    rw [String.toList_ofList, ← hlocated.heldOpen, heldOpen, hphase, hdepth]
    rfl

/-- A quoted name with a bracket in it, and then one bracket more than may have an item. -/
def deepText : String := String.ofList ("'é[' |".toList ++ List.replicate 128 '[' ++ [' ', 'T'])

set_option maxRecDepth 4000 in
/-- The offset is that of the item, after six characters of seven bytes, the brackets and a blank, and
the quoted bracket is not among those that are open. -/
theorem deepText_has_all_brackets_open :
    TypeExpr.parse deepText = .error (.tooDeep 136) ∧
      ∃ before, Text.IsSlice deepText 0 136 before ∧ leftOpen before.toList = ⟨none, 128⟩ := by
  have hdeep : TypeExpr.parse deepText = .error (.tooDeep 136) := rfl
  obtain ⟨-, -, -, htooDeep, -⟩ := parse_errors_point_at_their_cause deepText
  exact ⟨hdeep, (htooDeep 136 hdeep).2⟩

end CallGuard
