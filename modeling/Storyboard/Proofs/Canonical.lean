/-
Canonical text is read as what it says.

What has been read of a line is shown in its canonical form, the one that the machine completes
(`Machine.exists_performs_statement`). The literals of a line are legible: shown, each ends where it should and is
read again with the same whole number, the same text or the same places of a fraction (`Literal.Reread`). So the
canonical line is read as what it was the line of, and is canonical itself (`Statement.parse_canonical`).
-/
import Storyboard.Proofs.Acceptance

namespace Storyboard

/-! ## Literals -/

namespace Literal

open Machine (Argument)

/-- `Reread l l'`: the literal `l` can have become `l'` when it was shown and read again. A fraction keeps the places
that are shown of it. -/
inductive Reread : Literal → Literal → Prop where
  | int (v : Int) (marked : Bool) : Reread (.int v marked) (.int v marked)
  | float {x y : Number.Double} (marked : Bool) :
      (y.convert .single : Number.Single).fixed fractionPlaces
        = (x.convert .single : Number.Single).fixed fractionPlaces →
      Reread (.float x marked) (.float y marked)
  | text (t : Text) : Reread (.text t) (.text t)

theorem Reread.canonical_eq {l l' : Literal} (h : l.Reread l') : l'.canonical = l.canonical := by
  cases h with
  | int | text => rfl
  | float marked hplaces => rw [canonical, canonical, hplaces]

theorem Reread.literalRecords_eq {l l' : Literal} (h : l.Reread l') :
    Statement.literalRecords l' = Statement.literalRecords l := by
  cases h with
  | int | float | text => rfl

/-- What is shown of the literal can be read: a whole number fits a word, a fraction is finite in four bytes, and a
text has neither the ending of a text nor a newline inside. -/
def Legible : Literal → Prop
  | int v _ => Word.Fits v
  | float x _ => (x.convert .single : Number.Single).isFinite = true
  | text t => ¬Statement.textEnding <:+: t ∧ '\n' ∉ t

/-- A literal that was split off a list of one line is legible, if it is finite. -/
theorem legible_of_classify {list source : Text} {l : Literal} (h : classify source = .ok l)
    (hmem : source ∈ Statement.splitArguments list) (hline : '\n' ∉ list) (hfinite : l.Finite) : l.Legible := by
  have hsource : '\n' ∉ source := fun hnewline => hline ((Statement.infix_of_mem_splitArguments hmem).subset hnewline)
  cases l with
  | int v marked => exact fits_of_classify h
  | float x marked => exact Number.Binary.isFinite_convert_of_narrow hfinite (isSome_narrow?_of_classify h)
  | text t =>
    have hquoted := quoted_of_classify_text h
    rw [Text.withoutFinalNewline_of_notMem hsource] at hquoted
    rw [hquoted] at hmem hsource
    refine ⟨Statement.not_infix_of_mem_splitArguments hmem, ?_⟩
    simpa using hsource

/-- What a literal pushes, as the argument that is consumed. -/
def argument (l : Literal) : Argument := ⟨l.value, l.isMarked⟩

variable {l : Literal}

theorem Legible.shows (h : l.Legible) : l.argument.Shows l.canonical := by
  cases l with
  | int v marked => exact ⟨_, rfl, rfl⟩
  | float x marked => exact ⟨_, if_pos h, rfl⟩
  | text t => exact ⟨_, rfl, by simp [argument, canonical, isMarked]⟩

theorem Legible.plain (h : l.Legible) : l.argument.Plain := by
  intro t ht
  cases l with
  | int | float => cases ht
  | text t' =>
    obtain rfl := Value.text.inj ht
    exact ⟨rfl, h.1⟩

theorem Legible.oneLine (h : l.Legible) : l.argument.OneLine := by
  intro t ht
  cases l with
  | int | float => cases ht
  | text t' =>
    obtain rfl := Value.text.inj ht
    exact h.2

/-- **A legible literal is read again.** -/
theorem Legible.exists_reread (h : l.Legible) : ∃ l', classify l.canonical = .ok l' ∧ l.Reread l' := by
  cases l with
  | int v marked => exact ⟨_, classify_shown_word h marked, .int v marked⟩
  | float x marked =>
    obtain ⟨y, hread, -, -, hplaces⟩ := classify_shown_fraction h
    exact ⟨_, hread marked, .float marked hplaces⟩
  | text t => exact ⟨_, classify_quoted t, .text t⟩

theorem exists_rereads {ls : List Literal} (h : ∀ l ∈ ls, l.Legible) :
    ∃ ls', (ls.map canonical).mapM classify = .ok ls' ∧ List.Forall₂ Reread ls ls' := by
  induction ls with
  | nil => exact ⟨[], rfl, .nil⟩
  | cons l ls ih =>
    obtain ⟨hl, hls⟩ := List.forall_mem_cons.1 h
    obtain ⟨l', hread, hreread⟩ := hl.exists_reread
    obtain ⟨ls', hreads, hrereads⟩ := ih hls
    exact ⟨l' :: ls', mapM_cons_eq_ok_iff.2 ⟨l', ls', hread, hreads, rfl⟩, .cons hreread hrereads⟩

/-- What literals that were read again have in common with those that were shown, all of them have. -/
theorem map_eq_of_rereads {α : Type} {f : Literal → α} (hf : ∀ {l l' : Literal}, l.Reread l' → f l' = f l)
    {ls ls' : List Literal} (h : List.Forall₂ Reread ls ls') : ls'.map f = ls.map f := by
  induction h with
  | nil => rfl
  | cons hl _ ih => rw [List.map_cons, List.map_cons, hf hl, ih]

end Literal

/-! ## Lines -/

namespace Statement

/-- What a line can say. -/
inductive Kind where
  | sub
  | runMacro
  | time
  | exit
deriving DecidableEq

def kind : Statement → Kind
  | sub .. => .sub
  | runMacro _ => .runMacro
  | time _ => .time
  | exit _ => .exit

/-- The number of the sub method, the code of the macro, the time, or what is exited with. -/
def value : Statement → Int
  | sub number _ => number
  | runMacro code => code
  | time v => v
  | exit v => v

theorem kind_canonical (st : Statement) : st.canonical.kind = st.kind := by cases st <;> rfl

theorem value_canonical (st : Statement) : st.canonical.value = st.value := by cases st <;> rfl

variable {number number' n : Int} {line : Text} {st : Statement} {ls ls' : List Literal}

/-- The literals of a line that was read are legible, if they are finite. -/
theorem legible_of_parse (hparse : parse number line = .ok st) (hliterals : st.literals = .ok ls)
    (hfinite : ∀ l ∈ ls, l.Finite) : ∀ l ∈ ls, l.Legible := by
  cases st with
  | runMacro | time | exit =>
    obtain rfl := Except.ok.inj hliterals
    exact fun l hl => absurd hl List.not_mem_nil
  | sub n args =>
    obtain ⟨list, rfl, -, hline⟩ := exists_list_of_parse hparse
    intro l hl
    obtain ⟨source, hsource, hread⟩ := exists_of_mem_mapM hliterals l hl
    exact Literal.legible_of_classify hread hsource hline (hfinite l hl)

theorem canonical_sub {texts : List Text} (h : (sub n texts).literals = .ok ls) :
    (sub n texts).canonical = sub n (ls.map Literal.canonical) := by
  rw [(literals_eq_ok_iff.1 h).2]
  rfl

/-- **A call of legible literals is read as it was joined.** -/
theorem parse_render_legible (hnumber : 0 ≤ n ∧ n ≤ subLimit) (h : ∀ l ∈ ls, l.Legible) :
    parse number (render (sub n (ls.map Literal.canonical))) = .ok (sub n (ls.map Literal.canonical)) := by
  have hline : '\n' ∉ joinArguments (ls.map Literal.canonical) := by
    refine (notMem_joinArguments_iff (by decide)).2 (List.forall_mem_map.2 fun l hl => ?_)
    exact (h l hl).shows.oneLine_iff.2 (h l hl).oneLine
  have hsplit : splitArguments (joinArguments (ls.map Literal.canonical)) = ls.map Literal.canonical :=
    splitArguments_joinArguments (List.forall_mem_map.2 fun l hl =>
      ⟨(h l hl).shows.cuttable (h l hl).plain, (h l hl).shows.ne_nil⟩)
  exact parse_render_sub_iff.2 ⟨hnumber, hline, by rw [hsplit]⟩

/-- The number of a call that was read can be written. -/
theorem number_of_parse {texts : List Text} (h : parse number line = .ok (sub n texts)) : 0 ≤ n ∧ n ≤ subLimit := by
  cases readFrom_of_parse h with
  | sub _ _ hlimit => exact ⟨Int.natCast_nonneg _, Int.ofNat_le.2 hlimit⟩

/-- The canonical form of what a line is read as is read as itself. -/
theorem parse_render_canonical (hparse : parse number line = .ok st) (hliterals : st.literals = .ok ls)
    (hlegible : ∀ l ∈ ls, l.Legible) : parse number' st.canonical.render = .ok st.canonical := by
  cases st with
  | sub n texts =>
    rw [canonical_sub hliterals]
    exact parse_render_legible (number_of_parse hparse) hlegible
  | runMacro code => exact parse_render_runMacro (hasCode_of_parse hparse)
  | time v =>
    cases readFrom_of_parse hparse with
    | time _ hread => exact parse_render_time (Literal.fits_of_readInt hread)
  | exit v =>
    cases readFrom_of_parse hparse with
    | exit _ hread => exact parse_render_exit (Literal.fits_of_readInt hread)

/-- The literals of a canonical form are those that were shown, read again. -/
theorem exists_literals_canonical (hliterals : st.literals = .ok ls) (hlegible : ∀ l ∈ ls, l.Legible) :
    ∃ ls', st.canonical.literals = .ok ls' ∧ List.Forall₂ Literal.Reread ls ls' := by
  cases st with
  | sub n texts =>
    rw [canonical_sub hliterals]
    exact Literal.exists_rereads hlegible
  | runMacro | time | exit =>
    obtain rfl := Except.ok.inj hliterals
    exact ⟨[], rfl, .nil⟩

/-- **A canonical form is canonical.** -/
theorem canonical_canonical (hliterals : st.literals = .ok ls) (hliterals' : st.canonical.literals = .ok ls')
    (h : List.Forall₂ Literal.Reread ls ls') : st.canonical.canonical = st.canonical := by
  cases st with
  | runMacro | time | exit => rfl
  | sub n texts =>
    rw [canonical_sub hliterals] at hliterals' ⊢
    rw [canonical_sub hliterals', Literal.map_eq_of_rereads Literal.Reread.canonical_eq h]

/-- A canonical form takes as many bytes as what it is the form of. -/
theorem size_canonical (hliterals : st.literals = .ok ls) (hliterals' : st.canonical.literals = .ok ls')
    (h : List.Forall₂ Literal.Reread ls ls') : st.canonical.size = st.size := by
  cases st with
  | runMacro | time | exit => rfl
  | sub n texts =>
    rw [canonical_sub hliterals] at hliterals' ⊢
    unfold size records
    dsimp only
    rw [hliterals, hliterals']
    simp only [Except.map, Literal.map_eq_of_rereads Literal.Reread.literalRecords_eq h]

/-- **Canonical text is read as what it says.** What a line with finite fractions is read as has a canonical form,
with the arguments as the machine shows them, and the line of that is read as the form itself, of the same kind and
value. Its arguments are literals again, as many and one by one what they were, a fraction to the places that are
shown; it takes as many bytes, and it is its own canonical form. -/
theorem parse_canonical (hparse : parse number line = .ok st) (hliterals : st.literals = .ok ls)
    (hfinite : ∀ l ∈ ls, l.Finite) (number' : Int) :
    (∀ l ∈ ls, l.argument.Shows l.canonical) ∧
      parse number' st.canonical.render = .ok st.canonical ∧
      st.canonical.kind = st.kind ∧ st.canonical.value = st.value ∧
      (∃ ls', st.canonical.literals = .ok ls' ∧ List.Forall₂ Literal.Reread ls ls') ∧
      st.canonical.size = st.size ∧
      st.canonical.canonical.render = st.canonical.render := by
  have hlegible := legible_of_parse hparse hliterals hfinite
  obtain ⟨ls', hliterals', hrereads⟩ := exists_literals_canonical hliterals hlegible
  refine ⟨fun l hl => (hlegible l hl).shows, parse_render_canonical hparse hliterals hlegible, kind_canonical st,
    value_canonical st, ⟨ls', hliterals', hrereads⟩, size_canonical hliterals hliterals' hrereads, ?_⟩
  rw [canonical_canonical hliterals hliterals' hrereads]

/-- A number in Arabic digits with zeros in front, hexadecimal, a fraction with more places than are shown, a mark and
a text with quotes and a comma. -/
theorem parse_canonical_call : ∃ st ls,
    parse 1 "sub٠٠٠٧(0xFFFFFFFF, +5, 1.23456f, \"a\",\"b\");".toList = .ok st ∧ st.literals = .ok ls ∧
      (∀ l ∈ ls, l.Finite) ∧ st.canonical.render = "sub007(-1, 5, 1.2346f, \"a\",\"b\");".toList ∧
      parse 2 st.canonical.render = .ok st.canonical ∧ st.canonical.kind = .sub ∧ st.canonical.value = 7 ∧
      (∃ ls', st.canonical.literals = .ok ls' ∧ List.Forall₂ Literal.Reread ls ls') ∧
      st.canonical.size = .ok 108 ∧ st.canonical.canonical.render = st.canonical.render := by
  let st : Statement := .sub 7 ["0xFFFFFFFF".toList, "+5".toList, "1.23456f".toList, "\"a\",\"b\"".toList]
  have hparse : parse 1 "sub٠٠٠٧(0xFFFFFFFF, +5, 1.23456f, \"a\",\"b\");".toList = .ok st := by decide +kernel
  obtain ⟨ls, hliterals⟩ : ∃ ls, st.literals = .ok ls := exists_eq_ok (by decide +kernel)
  have hfinite : ∀ l ∈ ls, l.Finite := by
    rw [(literals_eq_ok_iff.1 hliterals).2]
    decide +kernel
  have hrender : st.canonical.render = "sub007(-1, 5, 1.2346f, \"a\",\"b\");".toList := by decide +kernel
  have hsize : st.size = .ok 108 := by decide +kernel
  obtain ⟨-, hread, hkind, hvalue, hrereads, hsame, hfixed⟩ := parse_canonical hparse hliterals hfinite 2
  exact ⟨st, ls, hparse, hliterals, hfinite, hrender, hread, hkind, hvalue, hrereads, hsame.trans hsize, hfixed⟩

end Statement
end Storyboard
