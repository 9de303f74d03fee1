import CallGuard.Proofs.Recognition

/-!
# Where reading stops

Reading stops at a character that is refused, and then it does not matter what comes after it, or at
the end of the text. Only the first can be blamed on a character (`Reader.read_error`), as what a
character can do shows (`Reader.Moves`), and only the second on the end (`Reader.finish_error`). A text
that was read to its end has brackets, dots or a quotation mark left open, and closing them from the
inside out makes a type of it (`Grammar.Stands.completes`), unless a bracket has been opened that is
one too many for an item.
-/

namespace CallGuard

/-- The errors that blame the end of a text. -/
inductive SyntaxError.Unfinished : SyntaxError → Prop where
  | empty : Unfinished .empty
  | unexpectedEnd (offset : Nat) (expected : Expectation) : Unfinished (.unexpectedEnd offset expected)
  | unterminated (offset : Nat) : Unfinished (.unterminated offset)

/-- The mark of the quoted name that a reader is in, if it is in one. -/
def Phase.quote? : Phase → Option Char
  | .quoted mark _ _ => some mark
  | _ => none

/-- The characters that open or close something. -/
def delimiters : List Char := ['"', '\'', '[', ']']

theorem not_mem_delimiters_of_isBlank {c : Char} (h : Text.isBlank c = true) : c ∉ delimiters := by
  have hall : ∀ d ∈ delimiters, (!Text.isBlank d) = true := List.all_eq_true.1 (by decide)
  intro hc
  simpa [h] using hall c hc

theorem not_mem_delimiters_of_isWordChar {c : Char} (h : Reader.isWordChar c = true) :
    c ∉ delimiters := by
  have hall : ∀ d ∈ delimiters, (!Reader.isWordChar d) = true := List.all_eq_true.1 (by decide)
  intro hc
  simpa [h] using hall c hc

namespace Reader

variable {r : Reader} {c : Char} {err : SyntaxError}

/-! ## One character -/

/-- What a character can do: open or close a bracket, begin, continue or end a quoted name, pass
outside of one, or be refused, for itself or because it begins an item in one bracket too many. -/
inductive Moves (r : Reader) (c : Char) : Except SyntaxError Reader → Prop where
  | opens {n : Reader} (char : c = '[') (outside : r.phase.quote? = none)
      (next : n.phase.quote? = none) (brackets : n.brackets.length = r.brackets.length + 1) :
      Moves r c (.ok n)
  | closes {n : Reader} (char : c = ']') (outside : r.phase.quote? = none)
      (next : n.phase.quote? = none) (brackets : r.brackets.length = n.brackets.length + 1) :
      Moves r c (.ok n)
  | passes {n : Reader} (char : c ∉ delimiters) (outside : r.phase.quote? = none)
      (next : n.phase.quote? = none) (brackets : n.brackets.length = r.brackets.length) :
      Moves r c (.ok n)
  | begins (char : c = '"' ∨ c = '\'') (outside : r.phase.quote? = none) :
      Moves r c (.ok { r with phase := .quoted c r.offset [] })
  | continues {mark : Char} {start : Nat} {body : List Char}
      (phase : r.phase = .quoted mark start body) (char : c ≠ mark) :
      Moves r c (.ok { r with phase := .quoted mark start (c :: body) })
  | ends {start : Nat} {body : List Char} {ph : Phase} (phase : r.phase = .quoted c start body)
      (next : ph.quote? = none) : Moves r c (.ok { r with phase := ph })
  | unexpected (expected : Expectation) : Moves r c (.error (.unexpected c r.offset expected))
  | tooDeep (phase : r.phase = .opened) (limit : depthLimit ≤ r.brackets.length) :
      Moves r c (.error (.tooDeep r.offset))

theorem moves_readOperand (h : r.phase.quote? = none) : r.Moves c (r.readOperand c) := by
  unfold readOperand
  split
  · rename_i hc
    exact .opens hc h rfl rfl
  · split
    · rename_i hc
      exact .passes (by simp [hc, delimiters]) h rfl rfl
    · split
      · rename_i hc
        exact .begins hc h
      · split
        · rename_i hc
          have hword : isWordChar c = true := by simp [isWordChar, hc]
          exact .passes (not_mem_delimiters_of_isWordChar hword) h rfl rfl
        · exact .unexpected _

theorem moves_readAfter (h : r.phase.quote? = none) (e : TypeExpr) :
    r.Moves c (r.readAfter e c) := by
  unfold readAfter
  split
  · rename_i hc
    exact .passes (by simp [hc, delimiters]) h rfl rfl
  · split
    · exact .unexpected _
    · rename_i b rest hbrackets
      split
      · rename_i hc
        exact .passes (by simp [hc, delimiters]) h rfl (by simp [hbrackets])
      · split
        · rename_i hc
          exact .closes hc h rfl (by simp [hbrackets])
        · exact .unexpected _

theorem moves_readAfterName (h : r.phase.quote? = none) (n : String) :
    r.Moves c (r.readAfterName n c) := by
  unfold readAfterName
  split
  · rename_i hc
    exact .passes (not_mem_delimiters_of_isBlank hc) h rfl rfl
  · split
    · rename_i hc
      exact .opens hc h rfl rfl
    · exact moves_readAfter h _

theorem moves_readFirstItem (h : r.phase = .opened) : r.Moves c (r.readFirstItem c) := by
  have houtside : r.phase.quote? = none := by rw [h]; rfl
  unfold readFirstItem
  split
  · rename_i hbrackets
    exact .closes rfl houtside rfl (by simp [hbrackets])
  · split
    · rename_i hlimit
      exact .tooDeep h hlimit
    · exact moves_readOperand houtside

theorem moves_read (r : Reader) (c : Char) : r.Moves c (r.read c) := by
  have hblank : r.phase.quote? = none → Text.isBlank c = true → r.Moves c (.ok r) := fun h hc =>
    .passes (not_mem_delimiters_of_isBlank hc) h h rfl
  unfold read
  split
  · rename_i hphase
    have houtside : r.phase.quote? = none := by rw [hphase]; rfl
    split
    · exact hblank houtside ‹_›
    · exact moves_readOperand houtside
  · rename_i hphase
    split
    · exact hblank (by rw [hphase]; rfl) ‹_›
    · exact moves_readFirstItem hphase
  · rename_i seen hphase
    split
    · rename_i hc
      refine .passes (by simp [hc, delimiters]) (by rw [hphase]; rfl) ?_ rfl
      by_cases hseen : seen = 1 <;> simp [hseen, Phase.quote?]
    · exact .unexpected _
  · rename_i mark start body hphase
    split
    · rename_i hc
      subst hc
      exact .ends hphase rfl
    · rename_i hc
      exact .continues hphase hc
  · rename_i letters hphase
    have houtside : r.phase.quote? = none := by rw [hphase]; rfl
    split
    · rename_i hc
      exact .passes (not_mem_delimiters_of_isWordChar hc) houtside rfl rfl
    · exact moves_readAfterName houtside _
  · rename_i hphase
    exact moves_readAfterName (by rw [hphase]; rfl) _
  · rename_i hphase
    have houtside : r.phase.quote? = none := by rw [hphase]; rfl
    split
    · exact hblank houtside ‹_›
    · exact moves_readAfter houtside _

theorem read_error (h : r.read c = .error err) :
    (∃ expected, err = .unexpected c r.offset expected) ∨
      err = .tooDeep r.offset ∧ r.phase = .opened ∧ depthLimit ≤ r.brackets.length := by
  have hmoves := moves_read r c
  rw [h] at hmoves
  cases hmoves with
  | unexpected expected => exact .inl ⟨expected, rfl⟩
  | tooDeep phase limit => exact .inr ⟨rfl, phase, limit⟩

/-! ## The end of the text -/

/-- How a text that ends where the reader stands is refused. -/
inductive RefusesEnd (r : Reader) : SyntaxError → Prop where
  | empty (phase : r.phase = .operand) (brackets : r.brackets = []) (members : r.members = []) :
      RefusesEnd r .empty
  | unexpectedEnd (expected : Expectation) : RefusesEnd r (.unexpectedEnd r.offset expected)
  | unterminated {mark : Char} {start : Nat} {body : List Char}
      (phase : r.phase = .quoted mark start body) : RefusesEnd r (.unterminated start)
  | tooDeep (phase : r.phase = .opened) (limit : depthLimit ≤ r.brackets.length) :
      RefusesEnd r (.tooDeep r.offset)

theorem endAfter_error {e : TypeExpr} (h : r.endAfter e = .error err) : r.RefusesEnd err := by
  unfold endAfter at h
  split at h <;> cases h
  exact .unexpectedEnd _

theorem finish_error (h : r.finish = .error err) : r.RefusesEnd err := by
  unfold finish at h
  split at h
  · rename_i hphase
    cases h
    unfold endOperand
    split
    · rename_i hbrackets hmembers
      exact .empty hphase hbrackets hmembers
    · exact .unexpectedEnd _
  · rename_i hphase
    split at h <;> cases h
    · rename_i hlimit
      exact .tooDeep hphase hlimit
    · exact .unexpectedEnd _
  · cases h
    exact .unexpectedEnd _
  · rename_i hphase
    cases h
    exact .unterminated hphase
  · exact endAfter_error h
  · exact endAfter_error h
  · exact endAfter_error h

/-! ## Whole texts -/

/-- Reading refuses a text at one of its characters or not at all. -/
theorem reads_or_stops (r : Reader) (cs : List Char) :
    (∃ r', Reads r cs r') ∨ ∃ before c after r' err,
      cs = before ++ c :: after ∧ Reads r before r' ∧ r'.read c = .error err := by
  induction cs generalizing r with
  | nil => exact .inl ⟨r, rfl⟩
  | cons c cs ih =>
    rcases hc : r.read c with err | n
    · exact .inr ⟨[], c, cs, r, err, rfl, rfl, hc⟩
    · obtain ⟨o, hread⟩ := reads_of_read hc
      rcases ih ⟨o, n.brackets, n.members, n.phase⟩ with
        ⟨r', h⟩ | ⟨before, d, after, r', err, rfl, h, hd⟩
      · exact .inl ⟨r', hread.cons h⟩
      · exact .inr ⟨c :: before, d, after, r', err, rfl, hread.cons h, hd⟩

theorem parse_of_reads {src : String} (h : Reads start src.toList r) :
    TypeExpr.parse src = r.finish := by
  unfold Reads at h
  rw [TypeExpr.parse, h]
  rfl

/-- What comes after a character that is refused plays no part. -/
theorem parse_of_refused {src : String} {before after : List Char}
    (hsrc : src.toList = before ++ c :: after) (h : Reads start before r)
    (hc : r.read c = .error err) : TypeExpr.parse src = .error err := by
  unfold Reads at h
  have hstep : r.step c = .error err := by rw [step, hc]; rfl
  rw [TypeExpr.parse, hsrc, List.foldlM_append, h]
  show (r.step c >>= fun n => after.foldlM step n) >>= finish = .error err
  rw [hstep]
  rfl

/-- A text that is not read is refused at one of its characters or at its end. -/
theorem parse_error_cases {src : String} (h : TypeExpr.parse src = .error err) :
    (∃ before c after r, src.toList = before ++ c :: after ∧ Reads start before r ∧
      r.read c = .error err) ∨ ∃ r, Reads start src.toList r ∧ r.finish = .error err := by
  rcases reads_or_stops start src.toList with ⟨r, hr⟩ | ⟨before, c, after, r, err', hsrc, hr, hc⟩
  · exact .inr ⟨r, hr, (parse_of_reads hr).symm.trans h⟩
  · have herr := (parse_of_refused hsrc hr hc).symm.trans h
    exact .inl ⟨before, c, after, r, hsrc, hr, hc.trans (congrArg _ (Except.error.inj herr))⟩

theorem parse_unexpected {src : String} {found : Char} {offset : Nat} {expected : Expectation}
    (h : TypeExpr.parse src = .error (.unexpected found offset expected)) :
    ∃ before after r, src.toList = before ++ found :: after ∧ Reads start before r ∧
      offset = r.offset ∧ r.read found = .error (.unexpected found offset expected) := by
  rcases parse_error_cases h with ⟨before, c, after, r, hsrc, hr, hc⟩ | ⟨r, -, hfinish⟩
  · rcases read_error hc with ⟨expected', herr⟩ | ⟨herr, -⟩ <;> cases herr
    exact ⟨before, after, r, hsrc, hr, rfl, hc⟩
  · cases finish_error hfinish

theorem parse_unfinished {src : String} (h : TypeExpr.parse src = .error err)
    (hunfinished : err.Unfinished) : ∃ r, Reads start src.toList r ∧ r.finish = .error err := by
  rcases parse_error_cases h with ⟨before, c, after, r, -, -, hc⟩ | hend
  · rcases read_error hc with ⟨expected, rfl⟩ | ⟨rfl, -⟩ <;> cases hunfinished
  · exact hend

/-! ## Closing what is open -/

/-- The reader can go on to the end of a type with no bracket around it. -/
def Completes (r : Reader) : Prop :=
  ∃ rest r' ms e, Reads r rest r' ∧ After r' [] ms e

theorem Reads.completes {cs : List Char} {r' : Reader} (h : Reads r cs r') (h' : r'.Completes) :
    r.Completes := by
  obtain ⟨rest, r'', ms, e, hrest, hafter⟩ := h'
  exact ⟨cs ++ rest, r'', ms, e, h.append hrest, hafter⟩

/-- After a type, the brackets around it can be closed. -/
theorem After.completes {bs : List Bracket} {ms : List TypeExpr} {e : TypeExpr}
    (h : After r bs ms e) : r.Completes := by
  induction bs generalizing r ms e with
  | nil => exact ⟨[], r, ms, e, rfl, h⟩
  | cons b bs ih =>
    obtain ⟨o, hclose⟩ := h.read_close
    exact hclose.completes (ih (.finished o bs b.outer _))

theorem Ready.completes {bs : List Bracket} {ms : List TypeExpr} (h : Ready r bs ms) :
    r.Completes := by
  obtain ⟨o, hdots⟩ := h.read_dots
  exact hdots.completes (After.finished o bs ms .ellipsis).completes

/-- A character that ends what has been begun leaves only brackets to close. -/
theorem completes_of_read {bs : List Bracket} {ms : List TypeExpr} {e : TypeExpr}
    (h : r.read c = .ok ⟨r.offset, bs, ms, .finished e⟩) : r.Completes := by
  obtain ⟨o, hread⟩ := reads_of_read h
  exact hread.completes (After.finished o bs ms e).completes

end Reader

namespace Grammar

open Reader

/-- Whatever has been read goes on to some type, unless it ends in a bracket that is one too many for
an item. -/
theorem Stands.completes {r : Reader} {cs : List Char} (h : Stands r cs)
    (hdeep : ∀ o, r.finish ≠ .error (.tooDeep o)) : r.Completes := by
  cases h with
  | @opened o bs ms head before mid hcs hb hm hh t hd =>
    refine (Ready.opened o [] ?_).completes
    have hlimit : ¬ depthLimit ≤ (Bracket.mk head ms [] :: bs).length := fun hle =>
      hdeep o (by simp only [Reader.finish, if_pos hle])
    omega
  | @inside o bs ms ph before mid last hb hm hp =>
    cases hp with
    | operand s hd => exact (Ready.operand o bs ms).completes
    | oneDot s hd =>
      obtain ⟨o', hdot⟩ := reads_of_read (r := ⟨o, bs, ms, .dots 1⟩) (c := '.')
        (n := ⟨o, bs, ms, .dots 2⟩) (by simp [Reader.read])
      exact hdot.completes (completes_of_read (r := ⟨o', bs, ms, .dots 2⟩) (c := '.') rfl)
    | twoDots s hd => exact completes_of_read (r := ⟨o, bs, ms, .dots 2⟩) (c := '.') rfl
    | @quoted s m start body hd hm hbody =>
      exact completes_of_read (r := ⟨o, bs, ms, .quoted m start body.reverse⟩) (c := m)
        (by simp only [Reader.read, if_true]; rfl)
    | word s w hd => exact (After.word o bs ms w.chars.reverse).completes
    | named s w t hd => exact (After.named o bs ms w.text).completes
    | finished p t hp => exact (After.finished o bs ms p.tree).completes

end Grammar

open Reader in
/-- Errors tell a text that is wrong from one that is not finished. A text that is refused for one of
its characters is refused with the same error however it goes on, so that no continuation of it is a
type. A text of which the end is refused goes on to some type. -/
theorem parse_error_tells_wrong_from_unfinished (src : String) :
    (∀ found offset expected, TypeExpr.parse src = .error (.unexpected found offset expected) →
      ∀ rest, TypeExpr.parse (src ++ rest) = .error (.unexpected found offset expected)) ∧
    ∀ err, TypeExpr.parse src = .error err → err.Unfinished →
      ∃ rest e, TypeExpr.parse (src ++ rest) = .ok e := by
  constructor
  · intro found offset expected h rest
    obtain ⟨before, after, r, hsrc, hr, -, hc⟩ := parse_unexpected h
    have hlonger : (src ++ rest).toList = before ++ found :: (after ++ rest.toList) := by
      rw [String.toList_append, hsrc, List.append_assoc, List.cons_append]
    exact parse_of_refused hlonger hr hc
  · intro err h hunfinished
    obtain ⟨r, hr, hfinish⟩ := parse_unfinished h hunfinished
    have hdeep : ∀ o, r.finish ≠ .error (.tooDeep o) := by
      intro o ho
      cases hfinish.symm.trans ho
      cases hunfinished
    obtain ⟨rest, r', ms, e, hrest, hafter⟩ := (Grammar.stands_of_reads hr).completes hdeep
    refine ⟨String.ofList rest, joined (e :: ms), ?_⟩
    have hreads : Reads start (src ++ String.ofList rest).toList r' := by
      rw [String.toList_append, String.toList_ofList]
      exact hr.append hrest
    exact (parse_of_reads hreads).trans hafter.finish_eq

/-- A semicolon in a bracket is refused for good, and a quotation mark and a bracket that are left open
can be closed. -/
theorem semicolon_is_wrong_and_open_quote_is_unfinished :
    (∀ rest, TypeExpr.parse ("[é, Int; " ++ rest) = .error (.unexpected ';' 8 .separator)) ∧
      ∃ rest e, TypeExpr.parse ("Dict[Key, 'Nod" ++ rest) = .ok e :=
  ⟨(parse_error_tells_wrong_from_unfinished "[é, Int; ").1 ';' 8 .separator rfl,
    (parse_error_tells_wrong_from_unfinished "Dict[Key, 'Nod").2 _ rfl (.unterminated 10)⟩

end CallGuard
