/-
Splitting an argument list, and reading a call again.

The arguments that a list is split into are the list when they are joined, and none of them could have ended
earlier (`joinArguments_splitArguments`). A call whose arguments are numbers and texts in quotes is read as the
call it was rendered from exactly when its number has no sign and no text in it has a newline or the ending of a
text inside (`parse_render_sub_same_iff`).
-/
import Storyboard.Proofs.Acceptance

namespace Storyboard.Statement

open Number Text

/-! ## What was split, joined again -/

theorem cutArguments_ne_nil (inText : Bool) (current t : Text) : cutArguments inText current t ≠ [] := by
  obtain ⟨s, rest, more, -, hcut⟩ := exists_cutArguments_eq inText current t
  rw [hcut]
  exact List.cons_ne_nil _ more

theorem joinArguments_cons {ss : List Text} (hss : ss ≠ []) (s : Text) :
    joinArguments (s :: ss) = s ++ (separator ++ joinArguments ss) := by
  obtain ⟨s', ss, rfl⟩ := List.exists_cons_of_ne_nil hss
  exact joinArguments_cons_cons s s' ss

theorem joinArguments_cutArguments (inText : Bool) (current t : Text) :
    joinArguments (cutArguments inText current t) = current.reverse ++ t := by
  fun_induction cutArguments inText current t with
  | case1 inText current => rw [joinArguments_singleton, List.append_nil]
  | case2 current c rest ih | case4 current c rest _ ih =>
    rw [ih, List.reverse_cons, List.append_assoc, List.singleton_append]
  | case3 current rest ih =>
    rw [joinArguments_cons (cutArguments_ne_nil false [] rest), ih]
    rfl

/-- **Splitting loses and invents nothing.** Joined, the arguments are the list that was split. None of them has
an earlier end inside: an argument that starts with a quote has no other quote in front of a separator, and one
that does not has no separator. -/
theorem joinArguments_splitArguments (t : Text) :
    joinArguments (splitArguments t) = t ∧
      ∀ a ∈ splitArguments t,
        (∀ content, a = '"' :: content → ¬textEnding <:+: content) ∧
          (a.head? ≠ some '"' → ¬separator <:+: a) := by
  constructor
  · by_cases ht : t = []
    · rw [ht]
      rfl
    · rw [splitArguments_of_ne ht, joinArguments_cutArguments]
      rfl
  · intro a ha
    constructor
    · intro content hcontent
      rw [hcontent] at ha
      exact not_textEnding_of_mem ha
    · exact not_separator_of_mem ha

example : splitArguments "\"a, \"b, 1, , x\"y\", \"".toList
    = ["\"a, \"b, 1, , x\"y\"".toList, "\"".toList] := by decide +kernel

/-! ## Calls that are read again -/

/-- An argument as a line shows it: a decimal number of any size and with any places, marked or not, or a text in
quotes. -/
inductive Shown : Text → Prop
  | whole (negative marked : Bool) {whole : Text} (hwhole : Digits whole) :
    Shown (signed negative whole ++ Literal.markText marked)
  | fraction (negative marked : Bool) {whole places : Text} (hwhole : Digits whole) (hplaces : Digits places) :
    Shown (signed negative (whole ++ '.' :: places) ++ Literal.markText marked)
  | text (content : Text) : Shown ('"' :: content ++ ['"'])

theorem shown_integer (v : Int) (marked : Bool) : Shown (integer v ++ Literal.markText marked) :=
  .whole _ marked (digits_decimal _)

theorem shown_fixed (x : Single) (marked : Bool) : Shown (x.fixed fractionPlaces ++ Literal.markText marked) :=
  .fraction _ marked (digits_decimal _) (digits_zeroPadded (digits_decimal _))

/-- What the machine shows of its arguments is such, but for a text with a mark. -/
theorem shown_of_shows {a : Machine.Argument} {t : Text} (h : a.Shows t)
    (hunmarked : ∀ content, a.value = .text content → a.marked = false) : Shown t := by
  obtain ⟨content, hcontent, rfl⟩ := h
  rcases Machine.argument_eq_ok hcontent with ⟨n, -, rfl⟩ | ⟨x, -, -, rfl⟩ | ⟨content, hvalue, rfl⟩
  · exact shown_integer n a.marked
  · exact shown_fixed x a.marked
  · rw [hunmarked content hvalue, Literal.markText_false, List.append_nil]
    exact .text content

theorem Shown.ne_nil {a : Text} (h : Shown a) : a ≠ [] := by
  cases h with
  | whole negative marked hwhole =>
    exact List.append_ne_nil_of_left_ne_nil (Literal.signed_ne_nil hwhole.1) _
  | fraction negative marked hwhole hplaces =>
    refine List.append_ne_nil_of_left_ne_nil (Literal.signed_ne_nil ?_) _
    exact List.append_ne_nil_of_left_ne_nil hwhole.1 _
  | text content => exact List.cons_ne_nil _ _

/-- What is no text has no character but its digits, its sign, its point and its mark. -/
theorem Shown.notMem {a : Text} {c : Char} (h : Shown a) (htext : ∀ content, a ≠ '"' :: content ++ ['"'])
    (hsign : c ≠ '-') (hpoint : c ≠ '.') (hmark : c ≠ Literal.mark) (hdigit : c.isDigit = false) : c ∉ a := by
  cases h with
  | whole negative marked hwhole =>
    exact List.not_mem_append (Literal.notMem_signed hsign (Literal.notMem_of_digits hdigit hwhole))
      (Literal.notMem_markText hmark marked)
  | fraction negative marked hwhole hplaces =>
    have hplaces' := List.not_mem_cons_of_ne_of_not_mem hpoint (Literal.notMem_of_digits hdigit hplaces)
    exact List.not_mem_append
      (Literal.notMem_signed hsign (List.not_mem_append (Literal.notMem_of_digits hdigit hwhole) hplaces'))
      (Literal.notMem_markText hmark marked)
  | text content => exact absurd rfl (htext content)

/-- An argument ends where it should, unless it is a text with the ending of a text inside. -/
theorem Shown.cuttable {a : Text} (h : Shown a)
    (hending : ∀ content, a = '"' :: content ++ ['"'] → ¬textEnding <:+: content) : Cuttable a := by
  by_cases htext : ∃ content, a = '"' :: content ++ ['"']
  · obtain ⟨content, hcontent⟩ := htext
    rw [hcontent]
    exact cuttable_quoted (hending content hcontent)
  · have hno := not_exists.1 htext
    exact cuttable_of_notMem (h.notMem hno (by decide) (by decide) (by decide) rfl)
      (h.notMem hno (by decide) (by decide) (by decide) rfl)

/-- An argument has a newline only inside a text. -/
theorem Shown.newline_notMem {a : Text} (h : Shown a)
    (hlines : ∀ content, a = '"' :: content ++ ['"'] → '\n' ∉ content) : '\n' ∉ a := by
  by_cases htext : ∃ content, a = '"' :: content ++ ['"']
  · obtain ⟨content, hcontent⟩ := htext
    rw [hcontent]
    simpa using hlines content hcontent
  · exact h.notMem (not_exists.1 htext) (by decide) (by decide) (by decide) rfl

/-- **Which calls are read again.** The line of a call of a sub method is read as that call exactly when the number
is not negative and no text among the arguments has a newline or the ending of a text inside. -/
theorem parse_render_sub_same_iff {line number : Int} {args : List Text} (hnumber : Word.Fits number)
    (hargs : ∀ a ∈ args, Shown a) :
    parse line (render (sub number args)) = .ok (sub number args) ↔
      0 ≤ number ∧
        ∀ content, '"' :: content ++ ['"'] ∈ args → '\n' ∉ content ∧ ¬textEnding <:+: content := by
  rw [parse_render_sub_iff, notMem_joinArguments_iff (by decide)]
  constructor
  · intro h
    obtain ⟨⟨hpos, -⟩, hlines, hsame⟩ := h
    have hsplit : args = splitArguments (joinArguments args) := (sub.inj hsame).2
    refine ⟨hpos, fun content hcontent => ⟨?_, ?_⟩⟩
    · have hnotMem := hlines _ hcontent
      simp only [List.cons_append, List.mem_cons, List.mem_append, not_or] at hnotMem
      exact hnotMem.2.1
    · rw [hsplit] at hcontent
      exact not_infix_of_mem_splitArguments hcontent
  · intro h
    obtain ⟨hpos, htexts⟩ := h
    have hlimit : number ≤ subLimit := Int.le_trans hnumber.2 (by decide)
    have hcut : ∀ a ∈ args, Cuttable a ∧ a ≠ [] := fun a ha =>
      ⟨(hargs a ha).cuttable fun content hcontent => (htexts content (hcontent ▸ ha)).2, (hargs a ha).ne_nil⟩
    have hlines : ∀ a ∈ args, '\n' ∉ a := fun a ha =>
      (hargs a ha).newline_notMem fun content hcontent => (htexts content (hcontent ▸ ha)).1
    exact ⟨⟨hpos, hlimit⟩, hlines, by rw [splitArguments_joinArguments hcut]⟩

/-- A text with a comma behind a quote, a marked number and a fraction are read again. -/
theorem parse_render_sub_same_quotes :
    parse 1 (render (sub 7 ["\"a\",\"\"".toList, "-3f".toList, "0.5000".toList]))
      = .ok (sub 7 ["\"a\",\"\"".toList, "-3f".toList, "0.5000".toList]) := by
  have hargs : ∀ a ∈ ["\"a\",\"\"".toList, "-3f".toList, "0.5000".toList], Shown a := by
    intro a ha
    simp only [List.mem_cons, List.not_mem_nil, or_false] at ha
    obtain rfl | rfl | rfl := ha
    · exact .text "a\",\"".toList
    · exact shown_integer (-3) true
    · exact .fraction false false (digits_decimal 0) (digits_decimal 5000)
  refine (parse_render_sub_same_iff (by decide) hargs).2 ⟨by decide, ?_⟩
  intro content hcontent
  -- Only the first argument starts with a quote.
  simp only [List.mem_cons, List.not_mem_nil, or_false] at hcontent
  rcases hcontent with h | h | h
  · obtain rfl : content = "a\",\"".toList := List.append_cancel_right (List.cons.inj h).2
    decide
  · cases h
  · cases h

end Storyboard.Statement
