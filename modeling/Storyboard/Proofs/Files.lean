/-
What writing a file changes, and what it leaves as it was.

`FileSystem.ChangesOnlyAt` says that at most one file is another one. Writing and replacing a file come to
that (`of_write`, `of_replace`). Paths lead to where they led to, and the file has its new contents (`read_write`,
`read_replace`). What can go wrong with a path that has no zero character concerns the file that is worked on
(`failsOnly_read`, `failsOnly_write`, `failsOnly_replace`).
-/
import Storyboard.FileSystem
import Storyboard.Proofs.Attempt

namespace Storyboard.FileSystem

variable {fs fs' : FileSystem} {location : Path} {bytes : List UInt8} {p : Path}

/-- All files but the one that a path leads to are the same. -/
def ChangesOnlyAt (p : Path) (fs fs' : FileSystem) : Prop :=
  ∃ location, fs.locate p = .ok location ∧ ∀ other, other ≠ location → fs'.contents? other = fs.contents? other

theorem changesOnlyAt_put (h : fs.locate p = .ok location) (bytes : List UInt8) :
    ChangesOnlyAt p fs (fs.put location bytes) :=
  ⟨location, h, fun _ hother => contents?_put_other fs hother bytes⟩

/-! ## Writing -/

/-- What has been written is at the location of its path, where there is no folder. -/
theorem of_write (h : fs.write p bytes = .ok fs') :
    ∃ location, fs.locate p = .ok location ∧ fs.hasFolder location = false ∧ fs' = fs.put location bytes := by
  obtain ⟨location, hlocate, h⟩ := except_bind_eq_ok_iff.1 h
  obtain ⟨hfolder, h⟩ := guard_eq_ok_iff.1 h
  injection h with h
  exact ⟨location, hlocate, Bool.eq_false_iff.2 hfolder, h.symm⟩

/-- A file that has been replaced is at the location of its path, where there is no folder. -/
theorem of_replace (h : fs.replace p bytes = .ok fs') :
    ∃ location, fs.locate p = .ok location ∧ fs.hasFolder location = false ∧ fs' = fs.put location bytes := by
  obtain ⟨_, -, h⟩ := except_bind_eq_ok_iff.1 h
  obtain ⟨location, hlocate, h⟩ := except_bind_eq_ok_iff.1 h
  obtain ⟨-, h⟩ := guard_eq_ok_iff.1 h
  obtain ⟨hfolder, h⟩ := guard_eq_ok_iff.1 h
  injection h with h
  exact ⟨location, hlocate, Bool.eq_false_iff.2 hfolder, h.symm⟩

/-! ## Reading what was written -/

theorem any_putFile (q : Path → Bool) (files : List (Path × List UInt8)) :
    (putFile location bytes files).any (q ·.1) = (files.any (q ·.1) || q location) := by
  induction files with
  | nil => simp [putFile]
  | cons file files ih =>
    unfold putFile
    split
    · next hfile =>
      rw [List.any_cons, List.any_cons, hfile, Bool.or_right_comm, Bool.or_self]
    · rw [List.any_cons, List.any_cons, ih, Bool.or_assoc]

/-- A file comes with the folders on the way to it. -/
theorem hasFolder_put (fs : FileSystem) (location : Path) (bytes : List UInt8) (other : Path) :
    (fs.put location bytes).hasFolder other = (fs.hasFolder other || location.isBelow other) := by
  unfold hasFolder put
  dsimp only
  rw [any_putFile (·.isBelow other), ← Bool.or_assoc, Bool.or_right_comm]

theorem hasFolder_put_self (fs : FileSystem) (location : Path) (bytes : List UInt8) :
    (fs.put location bytes).hasFolder location = fs.hasFolder location := by
  have hself : location.isBelow location = false := by simp [Path.isBelow]
  rw [hasFolder_put, hself, Bool.or_false]

theorem descend_put {shown : String} {place next : Path} {name : Text} (h : fs.descend shown place name = .ok next)
    (location : Path) (bytes : List UInt8) : (fs.put location bytes).descend shown place name = .ok next := by
  unfold descend at h ⊢
  split at h
  · next hfolder => rwa [hasFolder_put, hfolder, Bool.true_or, if_pos rfl]
  · split at h <;> contradiction

theorem foldlM_descend_put {shown : String} {names : List Text} {place place' : Path}
    (h : names.foldlM (fs.descend shown) place = .ok place') (location : Path) (bytes : List UInt8) :
    names.foldlM ((fs.put location bytes).descend shown) place = .ok place' := by
  induction names generalizing place with
  | nil => exact h
  | cons name names ih =>
    obtain ⟨next, hnext, hnames⟩ := except_bind_eq_ok_iff.1 h
    exact except_bind_eq_ok_iff.2 ⟨next, descend_put hnext location bytes, ih hnames⟩

/-- **Paths lead to where they led to** after a file has been written. -/
theorem locate_put {place : Path} (h : fs.locate p = .ok place) (location : Path) (bytes : List UInt8) :
    (fs.put location bytes).locate p = .ok place := by
  unfold locate follow at h ⊢
  split at h
  · contradiction
  · next hzero =>
    rw [if_neg hzero]
    split at h
    · contradiction
    · next hlong =>
      rw [if_neg hlong]
      exact foldlM_descend_put h location bytes

theorem read_put (hlocate : fs.locate p = .ok location) (hfolder : fs.hasFolder location = false)
    (bytes : List UInt8) : (fs.put location bytes).read p = .ok bytes := by
  refine except_bind_eq_ok_iff.2 ⟨location, locate_put hlocate location bytes, ?_⟩
  rw [hasFolder_put_self, hfolder, contents?_put_self]
  rfl

/-- **A written file has its contents.** -/
theorem read_write (h : fs.write p bytes = .ok fs') : fs'.read p = .ok bytes := by
  obtain ⟨location, hlocate, hfolder, rfl⟩ := of_write h
  exact read_put hlocate hfolder bytes

/-- **A replaced file has its new contents.** -/
theorem read_replace (h : fs.replace p bytes = .ok fs') : fs'.read p = .ok bytes := by
  obtain ⟨location, hlocate, hfolder, rfl⟩ := of_replace h
  exact read_put hlocate hfolder bytes

/-! ## The entries of a folder -/

/-- Entries that are in order already are the entries of their folder. -/
theorem entryNames_of_locate {names : List Text} (hlocate : fs.locate p = .ok location)
    (hnames : (((fs.files.map (·.1) ++ fs.folders).filter (·.isBelow location)).filterMap
      fun place => place.names[location.names.length]?).eraseDups = names)
    (hsorted : names.Pairwise fun a b => ¬b < a) : fs.entryNames p = names := by
  unfold entryNames
  rw [hlocate]
  dsimp only
  rw [hnames]
  exact List.mergeSort_of_pairwise (hsorted.imp decide_eq_true)

end Storyboard.FileSystem

namespace Storyboard

/-! ## What can go wrong -/

namespace Path

variable {p : Path}

/-- No part of the path has a zero character. -/
def ZeroFree (p : Path) : Prop := '\x00' ∉ p.root ∧ ∀ name ∈ p.names, '\x00' ∉ name

theorem zeroFree_iff : p.ZeroFree ↔ '\x00' ∉ p.toText := by
  have hnames : ∀ names : List Text, '\x00' ∉ ['/'].intercalate names ↔ ∀ name ∈ names, '\x00' ∉ name := by
    intro names
    induction names with
    | nil => simp
    | cons name names ih =>
      cases names with
      | nil => simp
      | cons next names =>
        rw [List.intercalate_cons_cons, List.forall_mem_cons, ← ih]
        simp
  unfold ZeroFree toText
  split
  · next hempty =>
    obtain ⟨hroot, hnone⟩ := hempty
    rw [List.isEmpty_iff] at hroot hnone
    simp [hroot, hnone]
  · rw [List.mem_append, not_or, hnames]

theorem ZeroFree.name (h : p.ZeroFree) : '\x00' ∉ p.name := by
  unfold Path.name
  cases hlast : p.names.getLast? with
  | none => simp
  | some name => exact h.2 name (List.mem_of_getLast? hlast)

theorem ZeroFree.withName (h : p.ZeroFree) {name : Text} (hname : '\x00' ∉ name) : (p.withName name).ZeroFree := by
  refine ⟨h.1, fun other hother => ?_⟩
  cases List.mem_append.1 hother with
  | inl hfront => exact h.2 other ((List.dropLast_prefix _).subset hfront)
  | inr hlast =>
    rw [List.mem_singleton.1 hlast]
    exact hname

theorem ZeroFree.withoutSuffix (h : p.ZeroFree) : p.withoutSuffix.ZeroFree := by
  refine h.withName fun hmem => h.name ?_
  unfold splitSuffix at hmem
  dsimp only at hmem
  split at hmem
  · exact hmem
  · exact List.mem_of_mem_take hmem

theorem ZeroFree.step {location : Path} (h : location.ZeroFree) {name : Text} (hname : '\x00' ∉ name) :
    (location.step name).ZeroFree := by
  unfold Path.step
  split
  · exact ⟨h.1, fun other hother => h.2 other ((List.dropLast_prefix _).subset hother)⟩
  · refine ⟨h.1, fun other hother => ?_⟩
    cases List.mem_append.1 hother with
    | inl hfront => exact h.2 other hfront
    | inr hlast =>
      rw [List.mem_singleton.1 hlast]
      exact hname

theorem ZeroFree.foldl_step {names : List Text} {location : Path} (h : location.ZeroFree)
    (hnames : ∀ name ∈ names, '\x00' ∉ name) : (names.foldl Path.step location).ZeroFree := by
  induction names generalizing location with
  | nil => exact h
  | cons name names ih =>
    obtain ⟨hname, hothers⟩ := List.forall_mem_cons.1 hnames
    exact ih (h.step hname) hothers

theorem ZeroFree.temporary (h : p.ZeroFree) : p.temporary.ZeroFree := by
  have hfolder : (location { p with names := p.names.dropLast }).ZeroFree :=
    ZeroFree.foldl_step ⟨h.1, by simp⟩ fun name hname => h.2 name ((List.dropLast_prefix _).subset hname)
  refine ⟨hfolder.1, fun other hother => ?_⟩
  cases List.mem_append.1 hother with
  | inl hfront => exact hfolder.2 other hfront
  | inr hlast =>
    rw [List.mem_singleton.1 hlast]
    simp [temporaryName, h.name]

end Path

namespace FileSystem

variable {fs : FileSystem} {p : Path}

theorem failsOnly_locate (fs : FileSystem) (hp : p.ZeroFree) :
    FailsOnly (fun e => e.failsFile = true) (fs.locate p) := by
  have hdescend : ∀ shown location name, FailsOnly (fun e => e.failsFile = true) (fs.descend shown location name) := by
    intro shown location name
    unfold descend
    split
    · split
      · exact .error rfl
      · exact .ok _
    · split
      · exact .error rfl
      · exact .error rfl
  unfold locate follow
  rw [if_neg (Path.zeroFree_iff.1 hp)]
  split
  · exact .error rfl
  · exact .foldlM (hdescend _) _ _

/-- A path that leads anywhere has no zero character. -/
theorem zeroFree_of_locate {location : Path} (h : fs.locate p = .ok location) : p.ZeroFree := by
  refine Path.zeroFree_iff.2 fun hzero => ?_
  unfold locate follow at h
  rw [if_pos hzero] at h
  contradiction

theorem failsOnly_isFile (fs : FileSystem) (p : Path) : FailsOnly (fun e => e.failsFile = true) (fs.isFile p) := by
  unfold isFile isAt
  split
  · exact .ok _
  · exact .error rfl
  · exact .ok _

theorem zeroFree_of_isFile (h : fs.isFile p = .ok true) : p.ZeroFree := by
  unfold isFile isAt at h
  split at h
  · next location hlocate => exact zeroFree_of_locate hlocate
  · contradiction
  · cases h

theorem failsOnly_read (fs : FileSystem) (hp : p.ZeroFree) : FailsOnly (fun e => e.failsFile = true) (fs.read p) := by
  refine (failsOnly_locate fs hp).bind fun location _ => .guard (fun _ => rfl) fun _ => ?_
  split
  · exact .ok _
  · split
    · exact .ok _
    · exact .error rfl

theorem failsOnly_write (fs : FileSystem) (hp : p.ZeroFree) (bytes : List UInt8) :
    FailsOnly (fun e => e.failsFile = true) (fs.write p bytes) :=
  (failsOnly_locate fs hp).bind fun _ _ => .guard (fun _ => rfl) fun _ => .ok _

theorem failsOnly_replace (fs : FileSystem) (hp : p.ZeroFree) (bytes : List UInt8) :
    FailsOnly (fun e => e.failsFile = true) (fs.replace p bytes) :=
  (failsOnly_locate fs hp.temporary).bind fun _ _ => (failsOnly_locate fs hp).bind fun _ _ =>
    .guard (fun _ => rfl) fun _ => .guard (fun _ => rfl) fun _ => .ok _

end FileSystem
end Storyboard
