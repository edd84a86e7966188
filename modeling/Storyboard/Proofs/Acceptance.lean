/-
Which lines that decoding gave are accepted again.

`Statement.Accepted` says that a line is read as a statement, and its arguments as literals. What the machine
holds is bounded (`bounded_of_steps`), so that numbers, fractions, macros, times and exits are always accepted;
a call of a sub method is if its number is not negative and its texts are plain and have no newline inside
(`accepted_of_decode`). A line whose last argument is a marked text never is.
-/
import Storyboard.Proofs.Bounds
import Storyboard.Proofs.Reencoding

namespace Storyboard

namespace Statement

open Number Text

/-- The line is read as a statement, and its arguments are read as literals. -/
def Accepted (line : Int) (t : Text) : Prop := ∃ s ls, parse line t = .ok s ∧ s.literals = .ok ls

/-! ## Macros, times and exits -/

/-- Whole numbers have no white space inside. -/
theorem isBlank_of_mem_integer {v : Int} {c : Char} (h : c ∈ integer v) : isBlank c = false := by
  cases hblank : isBlank c with
  | false => rfl
  | true =>
    have hsign : c ≠ '-' := by
      rintro rfl
      exact absurd hblank (by decide)
    have hdigit : c.isDigit = false := by
      refine Bool.eq_false_iff.2 fun hdigit => ?_
      have hrange := toNat_of_isDigit hdigit
      simp only [isBlank, inRanges, blankRanges, List.any_cons, List.any_nil, Bool.or_eq_true, Bool.and_eq_true,
        decide_eq_true_eq, Bool.or_false] at hblank
      omega
    exact absurd h (Literal.notMem_integer hsign hdigit v)

theorem readInt_integer {v : Int} (hv : Word.Fits v) : Literal.readInt (integer v) = .ok v := by
  have hread := Literal.classify_shown_word hv false
  rw [Literal.markText_false, List.append_nil] at hread
  unfold Literal.readInt
  rw [hread]
  rfl

theorem parse_render_time {line v : Int} (hv : Word.Fits v) : parse line (render (time v)) = .ok (time v) := by
  have hword : time? (render (time v)) = some (integer v) :=
    word?_eq_some_iff.2 ⟨rfl, Literal.signed_ne_nil (digits_decimal _).1, fun c => isBlank_of_mem_integer⟩
  have hsub : sub? (render (time v)) = none := rfl
  have hmacro : macroCode? (render (time v)) = none := rfl
  unfold parse
  dsimp only
  rw [withoutFinalNewline_render, hsub, hmacro, hword]
  dsimp only
  rw [readInt_integer hv]
  rfl

theorem parse_render_exit {line v : Int} (hv : Word.Fits v) : parse line (render (exit v)) = .ok (exit v) := by
  have hword : exit? (render (exit v)) = some (integer v) :=
    word?_eq_some_iff.2 ⟨rfl, Literal.signed_ne_nil (digits_decimal _).1, fun c => isBlank_of_mem_integer⟩
  have hsub : sub? (render (exit v)) = none := rfl
  have hmacro : macroCode? (render (exit v)) = none := rfl
  have htime : time? (render (exit v)) = none := rfl
  unfold parse
  dsimp only
  rw [withoutFinalNewline_render, hsub, hmacro, htime, hword]
  dsimp only
  rw [readInt_integer hv]
  rfl

theorem parse_render_runMacro {line : Int} {code : Nat} (hcode : code < 0x10000) :
    parse line (render (runMacro code)) = .ok (runMacro code) := by
  have hlength : (zeroPadded 4 (hexadecimal code)).length ≤ 4 := by
    have hdigits : (Nat.toDigits 16 code).length ≤ 4 :=
      (Nat.length_toDigits_le_iff (by decide) (by decide)).2 hcode
    simp only [zeroPadded, hexadecimal, List.length_append, List.length_replicate, List.length_map]
    omega
  have hmacro : macroCode? (render (runMacro code)) = some code := by
    unfold macroCode?
    rw [render, List.append_assoc, after?_append]
    simp only [Option.bind_eq_bind, Option.bind_some, before?_append]
    rw [if_pos hlength, readHexadecimal?_zeroPadded]
  have hsub : sub? (render (runMacro code)) = none := rfl
  unfold parse
  dsimp only
  rw [withoutFinalNewline_render, hsub, hmacro]

end Statement

/-! ## Quotes -/

namespace Literal

open Number Text

/-- No number, mark or quote has the character. -/
structure Foreign (c : Char) : Prop where
  sign : c ≠ '-'
  point : c ≠ '.'
  mark : c ≠ mark
  quote : c ≠ '"'
  digit : c.isDigit = false

theorem foreign_newline : Foreign '\n' := ⟨by decide, by decide, by decide, by decide, rfl⟩

theorem mem_withoutFinalNewline_iff {c : Char} {t : Text} (hc : c ≠ '\n') :
    c ∈ withoutFinalNewline t ↔ c ∈ t := by
  unfold withoutFinalNewline
  split
  · next hlast =>
    obtain ⟨t, rfl⟩ := List.getLast?_eq_some_iff.1 hlast
    simp [hc]
  · exact Iff.rfl

/-- What is neither a digit nor part of a numeral otherwise is behind it. -/
theorem notMem_of_numeral? {c : Char} {t : Text} {n : Numeral} (h : numeral? t = some n) (hsign : c ≠ '-')
    (hpoint : c ≠ '.') (hdigit : isDigit c = false) (hrest : c ∉ n.rest) : c ∉ t := by
  obtain ⟨hwhole, h⟩ := eq_of_numeral? h
  have hnot : c ∉ n.whole := notMem_of_anyDigits hdigit hwhole
  rcases h with ⟨-, ht⟩ | ⟨fraction, -, hfraction, ht⟩
  · rw [ht]
    exact notMem_signed hsign (List.not_mem_append hnot hrest)
  · have htail := List.not_mem_append (notMem_of_anyDigits hdigit hfraction) hrest
    rw [ht]
    exact notMem_signed hsign (List.not_mem_append hnot (List.not_mem_cons_of_ne_of_not_mem hpoint htail))

theorem notMem_of_readInteger {source whole : Text} {negative : Bool} {v : Int} {c : Char}
    (h : readInteger source whole negative = .ok v) (hdigit : isDigit c = false) : c ∉ whole := by
  unfold readInteger at h
  dsimp only at h
  by_cases hbad : whole.isEmpty = true ∨ (!whole.all isDigit) = true
  · rw [if_pos hbad] at h
    contradiction
  · intro hmem
    rw [not_or] at hbad
    have hall : whole.all isDigit = true := by simpa using hbad.2
    have := List.all_eq_true.1 hall c hmem
    rw [hdigit] at this
    contradiction

theorem notMem_of_readSigned {source t : Text} {v : Int} {c : Char} (h : readSigned source t = .ok v)
    (hminus : c ≠ '-') (hplus : c ≠ '+') (hdigit : isDigit c = false) : c ∉ t := by
  unfold readSigned at h
  split at h
  · exact List.not_mem_cons_of_ne_of_not_mem hminus (notMem_of_readInteger h hdigit)
  · exact List.not_mem_cons_of_ne_of_not_mem hplus (notMem_of_readInteger h hdigit)
  · exact notMem_of_readInteger h hdigit

/-- **A literal with a quote inside is a text in quotes.** -/
theorem quoted_of_classify {t : Text} {l : Literal} (h : classify t = .ok l) (hmem : '"' ∈ t) :
    ∃ content, withoutFinalNewline t = '"' :: (content ++ ['"']) := by
  have hmem' : '"' ∈ withoutFinalNewline t := (mem_withoutFinalNewline_iff (by decide)).2 hmem
  have hdigit : isDigit '"' = false := by decide
  -- What is behind a numeral is at most a mark, which is no quote.
  have hnumeral : ∀ {n : Numeral} {marked : Bool}, numeral? (withoutFinalNewline t) = some n →
      n.rest = markText marked → False := fun hn hrest =>
    notMem_of_numeral? hn (by decide) (by decide) hdigit (hrest ▸ notMem_markText (by decide) _) hmem'
  cases readFrom_of_classify h with
  | text hquoted => exact ⟨_, hquoted⟩
  | fraction hn _ hrest | marked hn _ hrest => exact (hnumeral hn hrest).elim
  | signed hread => exact absurd hmem' (notMem_of_readSigned hread (by decide) (by decide) hdigit)
  | hexadecimal hdigits hread =>
    unfold readHexadecimal at hread
    split at hread
    · next n hn =>
      rw [eq_append_of_after? hdigits, List.mem_append] at hmem
      have hmem := (mem_withoutFinalNewline_iff (by decide)).2 (hmem.resolve_left (by decide))
      have := isSome_hexDigit?_of_readHexadecimal? hn _ hmem
      contradiction
    · contradiction

/-- A text with a mark is no literal. -/
theorem classify_marked_quote {t : Text} {l : Literal} : classify (t ++ ['"', mark]) ≠ .ok l := by
  intro h
  obtain ⟨content, hcontent⟩ := quoted_of_classify h (by simp)
  have hlast : (t ++ ['"', mark]).getLast? = some mark := by rw [List.getLast?_append]; rfl
  have hnewline : withoutFinalNewline (t ++ ['"', mark]) = t ++ ['"', mark] :=
    if_neg (by rw [hlast]; decide)
  rw [hnewline] at hcontent
  rw [hcontent, ← List.cons_append, List.getLast?_append] at hlast
  simp [mark] at hlast

end Literal

/-! ## Calls of sub methods -/

namespace Statement

theorem notMem_joinArguments_iff {c : Char} {shown : List Text} (hc : c ∉ separator) :
    c ∉ joinArguments shown ↔ ∀ t ∈ shown, c ∉ t := by
  induction shown with
  | nil => simp [joinArguments, List.intercalate]
  | cons t shown ih =>
    cases shown with
    | nil => simp [joinArguments_singleton]
    | cons t' shown =>
      rw [joinArguments_cons_cons, List.forall_mem_cons, ← ih]
      simp [hc]

theorem cutArguments_singleton {inText : Bool} {c : Char} {current : Text} :
    cutArguments inText current [c] = [current.reverse ++ [c]] := by
  cases inText <;> simp [cutArguments]

/-- A list that ends with a marked text ends so when it is cut. -/
theorem exists_cutArguments_marked (inText : Bool) (current t : Text) :
    ∃ init last,
      cutArguments inText current (t ++ ['"', Literal.mark]) = init ++ [last ++ ['"', Literal.mark]] := by
  -- Neither of the last two characters ends an argument or belongs to a separator.
  generalize hlist : t ++ ['"', Literal.mark] = list
  fun_induction cutArguments inText current list generalizing t with
  | case1 => simp at hlist
  | case2 current c rest ih | case4 current c rest _ ih =>
    cases t with
    | nil =>
      obtain ⟨rfl, rfl⟩ := List.cons.inj hlist
      exact ⟨[], current.reverse, by rw [cutArguments_singleton]; simp⟩
    | cons d t => exact ih t (List.cons.inj hlist).2
  | case3 current rest ih =>
    cases t with
    | nil => cases (List.cons.inj hlist).1
    | cons d t =>
      cases t with
      | nil => cases (List.cons.inj (List.cons.inj hlist).2).1
      | cons d' t =>
        obtain ⟨init, last, hcut⟩ := ih t (List.cons.inj (List.cons.inj hlist).2).2
        exact ⟨current.reverse :: init, last, by rw [hcut, List.cons_append]⟩

/-- What ends the last argument ends the list. -/
theorem exists_joinArguments_append (shown : List Text) (t ending : Text) :
    ∃ rest, joinArguments (shown ++ [t ++ ending]) = rest ++ ending := by
  induction shown with
  | nil => exact ⟨t, by rw [List.nil_append, joinArguments_singleton]⟩
  | cons s shown ih =>
    obtain ⟨rest, hrest⟩ := ih
    cases shown with
    | nil =>
      rw [List.nil_append] at hrest
      exact ⟨s ++ (separator ++ rest), by
        rw [List.singleton_append, joinArguments_cons_cons, hrest]; simp⟩
    | cons s' shown =>
      exact ⟨s ++ (separator ++ rest), by
        rw [List.cons_append, List.cons_append, joinArguments_cons_cons, ← List.cons_append, hrest]; simp⟩

/-- **Arguments of which the last is a marked text are not read.** -/
theorem literals_marked {shown : List Text} {t : Text} {ls : List Literal} :
    (splitArguments (joinArguments (shown ++ [t ++ ['"', Literal.mark]]))).mapM Literal.classify ≠ .ok ls := by
  intro hread
  obtain ⟨rest, hjoin⟩ := exists_joinArguments_append shown t ['"', Literal.mark]
  obtain ⟨init, last, hcut⟩ := exists_cutArguments_marked false [] rest
  rw [hjoin, splitArguments_of_ne (by simp), hcut] at hread
  obtain ⟨l, hl⟩ := exists_of_mapM_eq_ok hread (last ++ ['"', Literal.mark]) (by simp)
  exact Literal.classify_marked_quote hl

/-- When a call of a sub method is accepted. -/
theorem accepted_sub_iff {line number : Int} {shown : List Text} (hnumber : Word.Fits number) :
    Accepted line (render (sub number shown)) ↔
      0 ≤ number ∧ (∀ t ∈ shown, '\n' ∉ t) ∧
        ∃ ls, (splitArguments (joinArguments shown)).mapM Literal.classify = .ok ls := by
  have hlimit : number ≤ subLimit := by
    have := hnumber.2
    simp only [subLimit]
    omega
  have hnewline := @notMem_joinArguments_iff '\n' shown (by decide)
  unfold Accepted
  simp only [Statement.parse_render_sub_iff, hnewline]
  constructor
  · intro h
    obtain ⟨_, ls, ⟨⟨hpos, -⟩, hlines, rfl⟩, hread⟩ := h
    exact ⟨hpos, hlines, ls, hread⟩
  · intro h
    obtain ⟨hpos, hlines, ls, hread⟩ := h
    exact ⟨_, ls, ⟨⟨hpos, hlimit⟩, hlines, rfl⟩, hread⟩

/-- Whatever else the machine completes is accepted. -/
theorem accepted_of_not_sub {line : Int} {st : Statement} (hst : st.Bounded)
    (hsub : ¬∃ number shown, st = sub number shown) : Accepted line st.render := by
  cases st with
  | sub number shown => exact absurd ⟨number, shown, rfl⟩ hsub
  | runMacro code => exact ⟨_, [], parse_render_runMacro hst, rfl⟩
  | time v => exact ⟨_, [], parse_render_time hst, rfl⟩
  | exit v => exact ⟨_, [], parse_render_exit hst, rfl⟩

end Statement

namespace Machine

/-- What a call consumes was on the stack. -/
theorem value_mem_of_mem_consumed {needed : Nat} {marked : Bool} {found : List Argument} {s : Stack}
    {a : Argument} (h : a ∈ consumed needed marked found s) : a ∈ found ∨ a.value ∈ s := by
  fun_induction consumed needed marked found s with
  | case1 | case2 => exact .inl h
  | case3 needed marked found s ih =>
    cases ih h with
    | inl h => exact .inl h
    | inr h => exact .inr (List.mem_cons_of_mem _ h)
  | case4 needed marked found v s hv ih =>
    cases ih h with
    | inl h =>
      cases List.mem_cons.1 h with
      | inl h => exact .inr (by rw [h]; exact List.mem_cons_self)
      | inr h => exact .inl h
    | inr h => exact .inr (List.mem_cons_of_mem _ h)

theorem value_mem_of_mem_popped {e : Event} {a : Argument} (h : a ∈ e.popped) : a.value ∈ e.stack := by
  unfold Event.popped at h
  split at h
  · exact (value_mem_of_mem_consumed h).resolve_left List.not_mem_nil
  · exact absurd h List.not_mem_nil

/-- If the argument is a text, it has no newline inside. -/
def Argument.OneLine (a : Argument) : Prop := ∀ t, a.value = .text t → '\n' ∉ t

/-- What is no part of a number, a mark or a quote is shown exactly where a text has it. -/
theorem Argument.Shows.notMem_iff {a : Argument} {t : Text} {c : Char} (h : a.Shows t) (hc : Literal.Foreign c) :
    c ∉ t ↔ ∀ content, a.value = .text content → c ∉ content := by
  obtain ⟨content, hcontent, rfl⟩ := h
  have hmark : c ∉ Literal.markText a.marked := Literal.notMem_markText hc.mark _
  have hiff : c ∉ content ++ Literal.markText a.marked ↔ c ∉ content := by
    rw [List.mem_append, not_or, and_iff_left hmark]
  rw [hiff]
  rcases argument_eq_ok hcontent with ⟨n, hn, rfl⟩ | ⟨x, hx, -, rfl⟩ | ⟨t, ht, rfl⟩
  · refine iff_of_true (Literal.notMem_integer hc.sign hc.digit n) fun t ht => ?_
    rw [hn] at ht
    cases ht
  · refine iff_of_true (Literal.notMem_fixed hc.sign hc.point hc.digit _ x) fun t ht => ?_
    rw [hx] at ht
    cases ht
  · constructor
    · intro hnotMem t' ht'
      obtain rfl : t = t' := Value.text.inj (ht.symm.trans ht')
      simpa [hc.quote] using hnotMem
    · intro htext
      simpa [hc.quote] using htext t ht

theorem Argument.Shows.oneLine_iff {a : Argument} {t : Text} (h : a.Shows t) : '\n' ∉ t ↔ a.OneLine :=
  h.notMem_iff Literal.foreign_newline

theorem forall_notMem_iff {args : List Argument} {shown : List Text} {c : Char}
    (h : List.Forall₂ Argument.Shows args shown) (hc : Literal.Foreign c) :
    (∀ t ∈ shown, c ∉ t) ↔ ∀ a ∈ args, ∀ t, a.value = .text t → c ∉ t := by
  induction h with
  | nil => simp
  | cons ha _ ih => rw [List.forall_mem_cons, List.forall_mem_cons, ha.notMem_iff hc, ih]

theorem forall_oneLine_iff {args : List Argument} {shown : List Text}
    (h : List.Forall₂ Argument.Shows args shown) : (∀ t ∈ shown, '\n' ∉ t) ↔ ∀ a ∈ args, a.OneLine :=
  forall_notMem_iff h Literal.foreign_newline

/-- **A plain argument is read.** -/
theorem Argument.Shows.exists_literal {a : Argument} {t : Text} (h : a.Shows t) (hplain : a.Plain)
    (hbounded : a.value.Bounded) : ∃ l, Literal.classify t = .ok l := by
  obtain ⟨content, hcontent, rfl⟩ := h
  rcases argument_eq_ok hcontent with ⟨n, hn, rfl⟩ | ⟨x, hx, hfinite, rfl⟩ | ⟨t, ht, rfl⟩
  · rw [hn] at hbounded
    exact ⟨_, Literal.classify_shown_word hbounded a.marked⟩
  · obtain ⟨y, hread, -⟩ := Literal.classify_shown_fraction hfinite
    exact ⟨_, hread a.marked⟩
  · obtain ⟨hunmarked, -⟩ := hplain t ht
    rw [hunmarked, Literal.markText_false, List.append_nil]
    exact ⟨_, Literal.classify_quoted t⟩

theorem exists_literals {args : List Argument} {shown : List Text} (h : List.Forall₂ Argument.Shows args shown)
    (hplain : ∀ a ∈ args, a.Plain) (hbounded : ∀ a ∈ args, a.value.Bounded) :
    ∃ ls, (Statement.splitArguments (Statement.joinArguments shown)).mapM Literal.classify = .ok ls := by
  induction h with
  | nil => exact ⟨[], rfl⟩
  | @cons a t args shown ha hargs ih =>
    obtain ⟨hfirst, hplain⟩ := List.forall_mem_cons.1 hplain
    obtain ⟨hbound, hbounded⟩ := List.forall_mem_cons.1 hbounded
    obtain ⟨l, hl⟩ := ha.exists_literal hfirst hbound
    obtain ⟨ls, hls⟩ := ih hplain hbounded
    rw [Statement.splitArguments_cons (ha.cuttable hfirst) ha.ne_nil (nil_notMem_of_shows hargs)]
    exact ⟨_, mapM_cons_eq_ok_iff.2 ⟨l, ls, hl, hls, rfl⟩⟩

/-- If the event called a sub method, the number of that is not negative, and the texts among the arguments have
no newline inside. -/
def Event.Writable (e : Event) : Prop :=
  ∀ number shown, e.statement = some (.sub number shown) → 0 ≤ number ∧ ∀ a ∈ e.popped, a.OneLine

/-- The event called a sub method with a marked text as the last argument. -/
def Event.EndsMarked (e : Event) : Prop :=
  (∃ number shown, e.statement = some (.sub number shown)) ∧ ∃ args t, e.popped = args ++ [⟨.text t, true⟩]

/-- A marked text is shown with a mark behind its quotes. -/
theorem shows_marked {args : List Argument} {t : Text} {shown : List Text}
    (h : List.Forall₂ Argument.Shows (args ++ [⟨.text t, true⟩]) shown) :
    ∃ front, shown = front ++ [('"' :: t) ++ ['"', Literal.mark]] := by
  have hreverse := List.forall₂_reverse_iff.2 h
  rw [List.reverse_append, List.reverse_singleton, List.singleton_append] at hreverse
  obtain ⟨last, front, ⟨content, hcontent, hlast⟩, -, hshown⟩ := List.forall₂_cons_left_iff.1 hreverse
  obtain rfl := Except.ok.inj hcontent
  refine ⟨front.reverse, ?_⟩
  rw [← List.reverse_reverse shown, hshown, hlast, List.reverse_cons]
  simp

/-- **One line.** -/
theorem accepted_of_step {texts : Int → Except Error Text} {record : Record} {position line : Int}
    {s s' : Stack} {st : Statement} (hs : ∀ v ∈ s, v.Bounded) (hst : st.Bounded)
    (hstep : step texts record position s = .ok (some st) s') :
    (Statement.Accepted line st.render → Event.Writable ⟨record, s, some st⟩) ∧
      (Event.Writable ⟨record, s, some st⟩ → (∀ a ∈ Event.popped ⟨record, s, some st⟩, a.Plain) →
        Statement.Accepted line st.render) ∧
      (Event.EndsMarked ⟨record, s, some st⟩ → ¬Statement.Accepted line st.render) := by
  by_cases hsub : ∃ number shown, st = .sub number shown
  · obtain ⟨number, shown, rfl⟩ := hsub
    have hshows := shows_of_step hstep
    rw [Statement.accepted_sub_iff hst, forall_oneLine_iff hshows]
    refine ⟨?_, ?_, ?_⟩
    · intro haccepted number' shown' h
      obtain ⟨rfl, rfl⟩ := Statement.sub.inj (Option.some.inj h)
      exact ⟨haccepted.1, haccepted.2.1⟩
    · intro hwritable hplain
      obtain ⟨hnumber, hlines⟩ := hwritable number shown rfl
      have hbounded : ∀ a ∈ Event.popped ⟨record, s, some (.sub number shown)⟩, a.value.Bounded :=
        fun a ha => hs _ (value_mem_of_mem_popped ha)
      exact ⟨hnumber, hlines, exists_literals hshows hplain hbounded⟩
    · intro hmarked haccepted
      obtain ⟨-, args, t, hpopped⟩ := hmarked
      obtain ⟨-, -, ls, hread⟩ := haccepted
      rw [hpopped] at hshows
      obtain ⟨front, rfl⟩ := shows_marked hshows
      exact Statement.literals_marked hread
  · have haccepted : Statement.Accepted line st.render := Statement.accepted_of_not_sub hst hsub
    have hno : ∀ number shown, some st ≠ some (.sub number shown) :=
      fun number shown h => hsub ⟨number, shown, Option.some.inj h⟩
    refine ⟨fun _ number shown h => absurd h (hno number shown), fun _ _ => haccepted, ?_⟩
    intro hmarked
    obtain ⟨⟨number, shown, h⟩, -⟩ := hmarked
    exact absurd h (hno number shown)

/-! ## Decoded lines -/

/-- **Which decoded lines are accepted.** Where decoding gives lines, each is what the machine showed for an event
that completed a statement. A macro, a time and an exit are accepted. So is a call of a sub method whose
number is not negative and whose texts are plain and have no newline inside; with another number or with a
newline it is not, and neither is it when its last argument is a marked text. -/
theorem accepted_of_decode {settings : Settings} {bytes : List UInt8} {position : Nat} {t : Transcript}
    (hdecode : Decoder.decode ⟨settings, ⟨bytes, position⟩, []⟩ = .ok t) :
    ∃ events s', Trace settings bytes position [] events s' ∧
      t.lines = (statements events).map Statement.render ∧
      ∀ e ∈ events, ∀ st, e.statement = some st → ∀ line : Int,
        (Statement.Accepted line st.render → e.Writable) ∧
          (e.Writable → (∀ a ∈ e.popped, a.Plain) → Statement.Accepted line st.render) ∧
          (e.EndsMarked → ¬Statement.Accepted line st.render) := by
  obtain ⟨events, s', htrace, hstatements⟩ := exists_trace ⟨settings, ⟨bytes, position⟩, []⟩
  refine ⟨events, s', htrace, ?_, ?_⟩
  · rw [eq_transcribe_of_decode hdecode, Transcript.lines, hstatements]
  · intro e he st hst line
    obtain ⟨hstack, hbounded, position', s₁, hstep⟩ :=
      bounded_of_steps htrace.steps htrace.stands.1 (by simp) e he
    obtain ⟨record, stack, statement⟩ := e
    obtain rfl : statement = some st := hst
    exact accepted_of_step hstack (hbounded st rfl) hstep

/-- A call with a text and a marked number, and one with a marked text. -/
theorem accepted_of_decode_calls : ∃ (settings : Settings) (bytes : List UInt8) (t : Transcript),
    Decoder.decode ⟨settings, ⟨bytes, 0⟩, []⟩ = .ok t ∧
      t.lines = ["sub007(\"a\", -3f);".toList, "sub007(\"a\"f);".toList] ∧
      ∃ events s', Trace settings bytes 0 [] events s' ∧
        t.lines = (statements events).map Statement.render ∧
        ∀ e ∈ events, ∀ st, e.statement = some st → ∀ line : Int,
          (Statement.Accepted line st.render → e.Writable) ∧
            (e.Writable → (∀ a ∈ e.popped, a.Plain) → Statement.Accepted line st.render) ∧
            (e.EndsMarked → ¬Statement.Accepted line st.render) := by
  let settings : Settings := ⟨some "ascii", some 16⟩
  let is : List Instruction := [.pushInt descriptorMarker, .pushInt 7, .pushTrue, .pushText 80, .pushInt (-3),
    .pushNull, .callSub 3, .pushInt descriptorMarker, .pushInt 7, .pushTrue, .pushText 80, .pushNull,
    .callSub 2]
  let bytes : List UInt8 := codeOf (is ++ [.finish]) ++ [0x61, 0]
  have htext : textsOf settings bytes 80 = .ok ['a'] := by decide +kernel
  have hperforms : Performs (textsOf settings bytes) [] is
      [.sub 7 ["\"a\"".toList, "-3f".toList], .sub 7 ["\"a\"f".toList]] [] :=
    .cons (step_pushInt _) (.cons (step_pushInt _) (.cons step_pushTrue (.cons (step_pushText htext)
      (.cons (step_pushInt _) (.cons step_pushNull (.cons (step_callSub rfl rfl rfl)
        (.cons (step_pushInt _) (.cons (step_pushInt _) (.cons step_pushTrue (.cons (step_pushText htext)
          (.cons step_pushNull (.cons (step_callSub rfl rfl rfl) .nil))))))))))))
  have hdecode := decode_eq_of_performs hperforms (by rfl : Instruction.finish.toRecord.isSentinel = true)
    (⟨by decide, by decide +kernel⟩ : Record.StandAt bytes 0 _)
  exact ⟨settings, bytes, _, hdecode, rfl, accepted_of_decode hdecode⟩

/-- Not all decoded lines are accepted: a marked text is shown with a mark behind its quotes. -/
theorem not_accepted_of_decode : ¬∀ (settings : Settings) (bytes : List UInt8) (position : Nat)
    (t : Transcript), Decoder.decode ⟨settings, ⟨bytes, position⟩, []⟩ = .ok t → t.failure = none →
    ∀ line ∈ t.lines, ∀ number, Statement.Accepted number line := by
  intro claim
  let settings : Settings := ⟨some "ascii", some 16⟩
  let is : List Instruction := [.pushInt descriptorMarker, .pushInt 7, .pushTrue, .pushText 20, .pushNull,
    .callSub 2, .pushInt 0, .exit]
  let bytes : List UInt8 := codeOf (is ++ [.finish]) ++ [0x61, 0]
  have htext : textsOf settings bytes 20 = .ok ['a'] := by decide +kernel
  have hperforms : Performs (textsOf settings bytes) [] is [.sub 7 ["\"a\"f".toList], .exit 0] [] :=
    .cons (step_pushInt _) (.cons (step_pushInt _) (.cons step_pushTrue (.cons (step_pushText htext)
      (.cons step_pushNull (.cons (step_callSub rfl rfl rfl)
        (.cons (step_pushInt _) (.cons (step_exit _) .nil)))))))
  have hdecode := decode_eq_of_performs hperforms (by rfl : Instruction.finish.toRecord.isSentinel = true)
    (⟨by decide, by decide +kernel⟩ : Record.StandAt bytes 0 _)
  have haccepted := claim settings bytes 0 _ hdecode rfl _ List.mem_cons_self 1
  obtain ⟨-, -, ls, hread⟩ := (Statement.accepted_sub_iff (by decide)).1 haccepted
  have hmarked : ["\"a\"f".toList] = [] ++ [['"', 'a'] ++ ['"', Literal.mark]] := rfl
  rw [hmarked] at hread
  exact Statement.literals_marked hread

end Machine
end Storyboard
