/-
Cutting an argument list that was joined.

An argument is cut off where it ends (`Cuttable`) if it has neither a quote nor a comma, or if it is a text in
quotes in which no quote is followed by a separator. Otherwise the text is cut off too early
(`splitArguments_of_infix`): whatever the list is, its first argument goes no further than to the ending of a text,
or to a separator if it is no text (`exists_cutArguments_text`, `exists_cutArguments_plain`).
-/
import Storyboard.Statement.Arguments

namespace Storyboard.Statement

open Text

/-- What ends a text inside an argument list. -/
def textEnding : Text := '"' :: separator

/-! ## Parts of the list -/

/-- Arguments are parts of the list that they are cut from. -/
theorem infix_of_mem_cutArguments {inText : Bool} {current t a : Text} (h : a ∈ cutArguments inText current t) :
    a <:+: current.reverse ++ t := by
  fun_induction cutArguments inText current t with
  | case1 inText current =>
    rw [List.mem_singleton.1 h]
    exact (List.prefix_append _ _).isInfix
  | case2 current c rest ih => simpa using ih h
  | case3 current rest ih =>
    cases List.mem_cons.1 h with
    | inl h =>
      rw [h]
      exact (List.prefix_append _ _).isInfix
    | inr h =>
      have hrest : rest <:+ current.reverse ++ ',' :: ' ' :: rest := ⟨current.reverse ++ [',', ' '], by simp⟩
      exact (ih h).trans hrest.isInfix
  | case4 current c rest hcomma ih => simpa using ih h

theorem infix_of_mem_splitArguments {t a : Text} (h : a ∈ splitArguments t) : a <:+: t := by
  unfold splitArguments at h
  split at h
  · exact absurd h List.not_mem_nil
  · exact infix_of_mem_cutArguments h

/-- The first argument starts with what has begun, and the list goes on behind it. -/
theorem exists_cutArguments_eq (inText : Bool) (current t : Text) :
    ∃ s rest more, t = s ++ rest ∧ cutArguments inText current t = (current.reverse ++ s) :: more := by
  fun_induction cutArguments inText current t with
  | case1 inText current => exact ⟨[], [], [], rfl, by rw [List.append_nil]⟩
  | case2 current c rest ih | case4 current c rest _ ih =>
    obtain ⟨s, rest', more, rfl, hcut⟩ := ih
    exact ⟨c :: s, rest', more, rfl, by rw [hcut]; simp⟩
  | case3 current rest ih => exact ⟨[], ',' :: ' ' :: rest, _, rfl, by rw [List.append_nil]⟩

/-- An argument is the first one, or the first one of what is left at some point. -/
theorem exists_of_mem_cutArguments {inText : Bool} {current t a : Text} (h : a ∈ cutArguments inText current t) :
    (∃ more, cutArguments inText current t = a :: more) ∨ ∃ rest more, cutArguments false [] rest = a :: more := by
  fun_induction cutArguments inText current t with
  | case1 inText current => exact .inl ⟨[], by rw [List.mem_singleton.1 h]⟩
  | case2 current c rest ih | case4 current c rest _ ih => exact ih h
  | case3 current rest ih =>
    cases List.mem_cons.1 h with
    | inl h => exact .inl ⟨_, by rw [h]⟩
    | inr h =>
      cases ih h with
      | inl hfirst => exact .inr ⟨rest, hfirst⟩
      | inr hlater => exact .inr hlater

/-- An argument can be cut off again in front of some list. -/
theorem exists_cutArguments_of_mem {t a : Text} (h : a ∈ splitArguments t) :
    ∃ rest more, cutArguments false [] (a ++ rest) = a :: more := by
  unfold splitArguments at h
  split at h
  · exact absurd h List.not_mem_nil
  · obtain ⟨list, more, hcut⟩ : ∃ list more, cutArguments false [] list = a :: more := by
      cases exists_of_mem_cutArguments h with
      | inl hfirst => exact ⟨t, hfirst⟩
      | inr hlater => exact hlater
    obtain ⟨s, rest, more', rfl, hcut'⟩ := exists_cutArguments_eq false [] list
    obtain rfl : s = a := (List.cons.inj (hcut'.symm.trans hcut)).1
    exact ⟨rest, more, hcut⟩

/-! ## Where arguments end -/

theorem endsArgument_eq_true_iff {rest : Text} :
    endsArgument rest = true ↔ rest = [] ∨ ∃ more, rest = separator ++ more := by
  unfold endsArgument
  rw [Bool.or_eq_true, List.isEmpty_iff, Option.isSome_iff_exists]
  refine or_congr_right (exists_congr fun more => ⟨eq_append_of_after?, ?_⟩)
  rintro rfl
  exact after?_append separator more

/-- An argument that ends is cut off. -/
theorem cutArguments_end {rest : Text} (h : endsArgument rest = true) (current : Text) :
    ∃ more, cutArguments false current rest = current.reverse :: more := by
  rcases endsArgument_eq_true_iff.1 h with rfl | ⟨more, rfl⟩
  · exact ⟨[], by rw [cutArguments]⟩
  · exact ⟨_, by rw [separator, List.cons_append, List.cons_append, List.nil_append, cutArguments]⟩

theorem cutArguments_text {c : Char} {current rest : Text} :
    cutArguments true current (c :: rest)
      = cutArguments (!(c = '"' && endsArgument rest)) (c :: current) rest := by
  rw [cutArguments]

/-- Outside a text an argument goes on where there is no separator. -/
theorem cutArguments_of_no_separator {c : Char} {current rest : Text} (h : ¬separator <+: c :: rest) :
    cutArguments false current (c :: rest)
      = cutArguments (c = '"' && current.isEmpty) (c :: current) rest := by
  rw [cutArguments]
  intro rest' hc hrest
  exact h ⟨rest', by rw [hc, hrest]; rfl⟩

/-- Outside a text only a comma can end an argument. -/
theorem cutArguments_of_ne {c : Char} {current rest : Text} (hc : c ≠ ',') :
    cutArguments false current (c :: rest)
      = cutArguments (c = '"' && current.isEmpty) (c :: current) rest :=
  cutArguments_of_no_separator fun h => hc (List.cons_prefix_cons.1 h).1.symm

/-- An argument that is read up to its end, however the list goes on. -/
def Cuttable (s : Text) : Prop :=
  ∀ rest, endsArgument rest = true → cutArguments false [] (s ++ rest) = cutArguments false s.reverse rest

theorem cutArguments_append {s current rest : Text} (hquote : '"' ∉ s) (hcomma : ',' ∉ s) :
    cutArguments false current (s ++ rest) = cutArguments false (s.reverse ++ current) rest := by
  induction s generalizing current with
  | nil => rfl
  | cons c s ih =>
    obtain ⟨hcq, hsq⟩ := List.ne_and_not_mem_of_not_mem_cons hquote
    obtain ⟨hcc, hsc⟩ := List.ne_and_not_mem_of_not_mem_cons hcomma
    have hc : (decide (c = '"') && current.isEmpty) = false := by simp [Ne.symm hcq]
    rw [List.cons_append, cutArguments_of_ne (Ne.symm hcc), hc, ih hsq hsc]
    simp

theorem cuttable_of_notMem {s : Text} (hquote : '"' ∉ s) (hcomma : ',' ∉ s) : Cuttable s := by
  intro rest _
  rw [cutArguments_append hquote hcomma, List.append_nil]

/-! ## Texts -/

/-- Inside a text, a quote that is not its last one ends it only in front of a separator. -/
theorem endsArgument_quoted {t rest : Text} (h : endsArgument (t ++ '"' :: rest) = true) :
    separator <+: t := by
  rcases endsArgument_eq_true_iff.1 h with h | ⟨more, h⟩
  · simp at h
  · rcases t with _ | ⟨c, _ | ⟨d, t⟩⟩
    · cases h
    · cases h
    · have hc : c = ',' := (List.cons.inj h).1
      have hd : d = ' ' := (List.cons.inj (List.cons.inj h).2).1
      exact ⟨t, by rw [hc, hd]; rfl⟩

/-- Without the ending of a text inside it, a text goes on. -/
theorem inText_of_not_infix {c : Char} {t rest : Text} (h : ¬textEnding <:+: c :: t) :
    (!(decide (c = '"') && endsArgument (t ++ '"' :: rest))) = true := by
  cases hend : endsArgument (t ++ '"' :: rest) with
  | false => simp
  | true =>
    obtain ⟨more, rfl⟩ := endsArgument_quoted hend
    have hc : c ≠ '"' := by
      rintro rfl
      exact h ⟨[], more, rfl⟩
    simp [hc]

theorem cutArguments_quoted {t current rest : Text} (h : ¬textEnding <:+: t)
    (hrest : endsArgument rest = true) :
    cutArguments true current (t ++ '"' :: rest) = cutArguments false ('"' :: (t.reverse ++ current)) rest := by
  induction t generalizing current with
  | nil =>
    rw [List.nil_append, cutArguments_text, hrest]
    rfl
  | cons c t ih =>
    rw [List.cons_append, cutArguments_text, inText_of_not_infix h, ih fun hin => h (List.infix_cons hin)]
    simp

/-- What is read of a text in quotes, from its first character on. -/
theorem cutArguments_open (t rest : Text) :
    cutArguments false [] ('"' :: t ++ rest) = cutArguments true ['"'] (t ++ rest) := by
  rw [List.cons_append, cutArguments_of_ne (by decide)]
  rfl

theorem cuttable_quoted {t : Text} (h : ¬textEnding <:+: t) : Cuttable ('"' :: t ++ ['"']) := by
  intro rest hrest
  rw [List.append_assoc, cutArguments_open, List.singleton_append, cutArguments_quoted h hrest]
  simp

/-! ## Where the first argument ends -/

/-- A text is cut off before it has the ending of a text inside, behind a quote or at the end of the list. -/
theorem exists_cutArguments_text (current t : Text) :
    ∃ s rest more, t = s ++ rest ∧ cutArguments true current t = (current.reverse ++ s) :: more ∧
      ¬textEnding <:+: s ∧ (rest = [] ∨ ∃ content, s = content ++ ['"']) := by
  induction t generalizing current with
  | nil => exact ⟨[], [], [], rfl, by rw [cutArguments, List.append_nil], by decide, .inl rfl⟩
  | cons c t ih =>
    by_cases hends : (decide (c = '"') && endsArgument t) = true
    · -- The text ends here, one character long.
      obtain ⟨hc, ht⟩ := Bool.and_eq_true_iff.1 hends
      obtain rfl := of_decide_eq_true hc
      obtain ⟨more, hcut⟩ := cutArguments_end ht ('"' :: current)
      refine ⟨['"'], t, more, rfl, ?_, by decide, .inr ⟨[], rfl⟩⟩
      rw [cutArguments_text, hends, Bool.not_true, hcut, List.reverse_cons]
    · obtain ⟨s, rest, more, rfl, hcut, hs, hlast⟩ := ih (c :: current)
      refine ⟨c :: s, rest, more, rfl, ?_, fun h => ?_, hlast.imp_right fun h => ?_⟩
      · rw [cutArguments_text, Bool.eq_false_iff.2 hends, Bool.not_false, hcut]
        simp
      · -- A quote in front of a separator would have ended the text.
        rcases List.infix_cons_iff.1 h with ⟨after, hafter⟩ | h
        · obtain ⟨rfl, rfl⟩ := List.cons.inj hafter
          refine hends (Bool.and_eq_true_iff.2 ⟨by decide, ?_⟩)
          exact endsArgument_eq_true_iff.2 (.inr ⟨after ++ rest, List.append_assoc ..⟩)
        · exact hs h
      · obtain ⟨content, rfl⟩ := h
        exact ⟨c :: content, rfl⟩

/-- What is no text is cut off before it has a separator inside. -/
theorem exists_cutArguments_plain (current t : Text) (h : current ≠ [] ∨ t.head? ≠ some '"') :
    ∃ s rest more, t = s ++ rest ∧ cutArguments false current t = (current.reverse ++ s) :: more ∧
      ¬separator <:+: s := by
  induction t generalizing current with
  | nil => exact ⟨[], [], [], rfl, by rw [cutArguments, List.append_nil], by decide⟩
  | cons c t ih =>
    by_cases hsep : separator <+: c :: t
    · have hends : endsArgument (c :: t) = true := by
        obtain ⟨more, hmore⟩ := hsep
        exact endsArgument_eq_true_iff.2 (.inr ⟨more, hmore.symm⟩)
      obtain ⟨more, hcut⟩ := cutArguments_end hends current
      exact ⟨[], c :: t, more, rfl, by rw [hcut, List.append_nil], by decide⟩
    · have hmode : (decide (c = '"') && current.isEmpty) = false := by
        rcases h with h | h
        · simp [h]
        · simp only [List.head?_cons, ne_eq, Option.some.injEq] at h
          simp [h]
      obtain ⟨s, rest, more, rfl, hcut, hs⟩ := ih (c :: current) (.inl (List.cons_ne_nil c current))
      refine ⟨c :: s, rest, more, rfl, ?_, fun h => ?_⟩
      · rw [cutArguments_of_no_separator hsep, hmode, hcut]
        simp
      · rcases List.infix_cons_iff.1 h with h | h
        · exact hsep (h.trans (List.prefix_append (c :: s) rest))
        · exact hs h

/-- The ending of a text is in no argument that starts with a quote, but for that quote. -/
theorem not_textEnding_of_mem {t content : Text} (h : '"' :: content ∈ splitArguments t) :
    ¬textEnding <:+: content := by
  obtain ⟨rest, more, hcut⟩ := exists_cutArguments_of_mem h
  obtain ⟨s, _, more', -, hcut', hs, -⟩ := exists_cutArguments_text ['"'] (content ++ rest)
  rw [cutArguments_open, hcut'] at hcut
  obtain rfl : s = content := (List.cons.inj (List.cons.inj hcut).1).2
  exact hs

/-- **A text that was split off has no ending of a text inside.** -/
theorem not_infix_of_mem_splitArguments {t content : Text} (h : '"' :: content ++ ['"'] ∈ splitArguments t) :
    ¬textEnding <:+: content :=
  fun hending => not_textEnding_of_mem h (hending.trans (List.prefix_append content ['"']).isInfix)

/-- A separator is in no argument that starts with another character. -/
theorem not_separator_of_mem {t a : Text} (h : a ∈ splitArguments t) (ha : a.head? ≠ some '"') :
    ¬separator <:+: a := by
  obtain ⟨rest, more, hcut⟩ := exists_cutArguments_of_mem h
  cases a with
  | nil => decide
  | cons c a =>
    have hhead : (c :: a ++ rest).head? ≠ some '"' := ha
    obtain ⟨s, _, more', -, hcut', hs⟩ := exists_cutArguments_plain [] (c :: a ++ rest) (.inr hhead)
    rw [hcut'] at hcut
    obtain rfl : s = c :: a := (List.cons.inj hcut).1
    exact hs

/-! ## Lists -/

theorem joinArguments_singleton (s : Text) : joinArguments [s] = s := by
  simp [joinArguments, List.intercalate]

theorem joinArguments_cons_cons (s s' : Text) (ss : List Text) :
    joinArguments (s :: s' :: ss) = s ++ (separator ++ joinArguments (s' :: ss)) := by
  simp [joinArguments, List.intercalate]

theorem exists_joinArguments_cons (s : Text) (ss : List Text) :
    ∃ rest, joinArguments (s :: ss) = s ++ rest := by
  cases ss with
  | nil => exact ⟨[], by rw [joinArguments_singleton, List.append_nil]⟩
  | cons s' ss => exact ⟨_, joinArguments_cons_cons s s' ss⟩

theorem splitArguments_of_ne {t : Text} (h : t ≠ []) : splitArguments t = cutArguments false [] t := by
  unfold splitArguments
  rw [if_neg (by simpa using h)]

theorem joinArguments_ne {s : Text} {ss : List Text} (h : s ≠ []) : joinArguments (s :: ss) ≠ [] := by
  obtain ⟨rest, hrest⟩ := exists_joinArguments_cons s ss
  rw [hrest]
  exact List.append_ne_nil_of_left_ne_nil h rest

/-- **An argument that ends where it should is split off**, and the others are left. -/
theorem splitArguments_cons {s : Text} {ss : List Text} (hs : Cuttable s) (hne : s ≠ []) (hss : [] ∉ ss) :
    splitArguments (joinArguments (s :: ss)) = s :: splitArguments (joinArguments ss) := by
  rw [splitArguments_of_ne (joinArguments_ne hne)]
  cases ss with
  | nil =>
    have h := hs [] rfl
    rw [List.append_nil] at h
    rw [joinArguments_singleton, h, cutArguments, List.reverse_reverse]
    rfl
  | cons s' ss =>
    have hs' : s' ≠ [] := fun h => hss (h ▸ List.mem_cons_self)
    rw [joinArguments_cons_cons, hs _ (endsArgument_eq_true_iff.2 (.inr ⟨_, rfl⟩)),
      splitArguments_of_ne (joinArguments_ne hs'), separator, List.cons_append, List.cons_append,
      List.nil_append, cutArguments, List.reverse_reverse]

/-- **Arguments that end where they should are split as they were joined.** -/
theorem splitArguments_joinArguments {ss : List Text} (h : ∀ s ∈ ss, Cuttable s ∧ s ≠ []) :
    splitArguments (joinArguments ss) = ss := by
  induction ss with
  | nil => rfl
  | cons s ss ih =>
    obtain ⟨⟨hs, hne⟩, hss⟩ := List.forall_mem_cons.1 h
    rw [splitArguments_cons hs hne fun hnil => (hss [] hnil).2 rfl, ih hss]

/-- **A text that has the ending of a text inside it is cut off there**, whatever follows it. -/
theorem splitArguments_of_infix {t rest : Text} {ss : List Text} (h : textEnding <:+: t) :
    ∃ a more, splitArguments (joinArguments (('"' :: t ++ rest) :: ss)) = ('"' :: a ++ ['"']) :: more ∧
      a ≠ t := by
  obtain ⟨others, hjoin⟩ := exists_joinArguments_cons ('"' :: t ++ rest) ss
  obtain ⟨s, left, more, hsplit, hcut, hs, hlast⟩ := exists_cutArguments_text ['"'] (t ++ (rest ++ others))
  rcases hlast with rfl | ⟨a, rfl⟩
  · -- The whole list has the ending of a text inside.
    rw [List.append_nil] at hsplit
    exact absurd (h.trans (hsplit ▸ List.prefix_append t (rest ++ others)).isInfix) hs
  · refine ⟨a, more, ?_, ?_⟩
    · rw [splitArguments_of_ne (joinArguments_ne (by simp)), hjoin, List.append_assoc, cutArguments_open, hcut]
      rfl
    · rintro rfl
      exact hs (h.trans (List.prefix_append a ['"']).isInfix)

end Storyboard.Statement
