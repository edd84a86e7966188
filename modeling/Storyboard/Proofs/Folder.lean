/-
What is in a folder.

A path leads to its own location or nowhere (`FileSystem.location_of_locate`), so that a file is there when something
leads to its location and that holds one (`FileSystem.isFile_iff`). The files right in a folder are among its entries,
which are in the order of their names (`FileSystem.mem_entryNames`, `FileSystem.pairwise_entryNames`).
-/
import Mathlib.Data.Char
import Mathlib.Data.List.Lex
import Mathlib.Tactic.Tauto
import Storyboard.Proofs.Files

namespace Storyboard

namespace Path

variable {p q : Path} {name other : Text}

@[simp] theorem name_child (p : Path) (name : Text) : (p.child name).name = name := by simp [Path.name, child]

@[simp] theorem withName_child (p : Path) (name other : Text) : (p.child name).withName other = p.child other := by
  simp [withName, child]

theorem child_inj : p.child name = p.child other ↔ name = other := by simp [child]

/-- A name that does not lead back up leads one name further. -/
theorem location_child (h : name ≠ parentName) : (p.child name).location = p.location.child name := by
  unfold location child
  rw [List.foldl_append]
  simp only [List.foldl_cons, List.foldl_nil, step, h, false_and, if_false]
  rfl

/-- What is in a folder is below it. -/
theorem isBelow_child (p : Path) (name : Text) : (p.child name).isBelow p = true := by
  simp [isBelow, child]

end Path

namespace FileSystem

variable {fs fs' : FileSystem} {p location : Path} {name : Text}

/-! ## Where paths lead to -/

/-- All names lead on from a place. -/
def Leads (fs : FileSystem) : Path → List Text → Prop
  | _, [] => True
  | place, name :: names =>
    fs.hasFolder place = true ∧ Text.utf8Size name ≤ nameLimit ∧ fs.Leads (place.step name) names

theorem leads_append_iff {place : Path} {names : List Text} :
    fs.Leads place (names ++ [name]) ↔
      fs.Leads place names ∧ fs.hasFolder (names.foldl Path.step place) = true ∧ Text.utf8Size name ≤ nameLimit := by
  induction names generalizing place with
  | nil => simp [Leads]
  | cons other names ih =>
    rw [List.cons_append, Leads, ih, Leads, List.foldl_cons]
    tauto

theorem descend_eq_ok_iff {shown : String} {next : Path} :
    fs.descend shown location name = .ok next ↔
      fs.hasFolder location = true ∧ Text.utf8Size name ≤ nameLimit ∧ location.step name = next := by
  unfold descend
  split
  · next hfolder => split <;> simp_all
  · next hfolder => split <;> simp_all

theorem foldlM_descend_eq_ok_iff {shown : String} {names : List Text} {next : Path} :
    names.foldlM (fs.descend shown) location = .ok next ↔
      fs.Leads location names ∧ names.foldl Path.step location = next := by
  induction names generalizing location with
  | nil => simp [Leads, pure, Except.pure]
  | cons name names ih =>
    refine except_bind_eq_ok_iff.trans ?_
    simp only [descend_eq_ok_iff, ih, Leads, List.foldl_cons]
    constructor
    · intro h
      obtain ⟨_, ⟨hfolder, hshort, rfl⟩, hleads, hnext⟩ := h
      exact ⟨⟨hfolder, hshort, hleads⟩, hnext⟩
    · intro h
      obtain ⟨⟨hfolder, hshort, hleads⟩, hnext⟩ := h
      exact ⟨_, ⟨hfolder, hshort, rfl⟩, hleads, hnext⟩

/-- **A path leads to its own location**, if all of its names lead on. -/
theorem locate_eq_ok_iff : fs.locate p = .ok location ↔
    ('\x00' ∉ p.toText ∧ Text.utf8Size p.toText < pathLimit ∧ fs.Leads { root := p.root } p.names) ∧
      p.location = location := by
  unfold locate follow
  split
  · next hzero => simp [hzero]
  · next hzero =>
    split
    · next hlong => simp [Nat.not_lt.2 hlong]
    · next hlong =>
      rw [foldlM_descend_eq_ok_iff]
      simp [hzero, Nat.lt_of_not_le hlong, Path.location]

theorem location_of_locate (h : fs.locate p = .ok location) : p.location = location := (locate_eq_ok_iff.1 h).2

/-! ## Files and folders -/

/-- There is a file at a location. -/
def hasFile (fs : FileSystem) (location : Path) : Bool := !fs.hasFolder location && (fs.contents? location).isSome

theorem isAt_eq_true_iff {kind : Path → Bool} :
    fs.isAt p kind = .ok true ↔ fs.locate p = .ok p.location ∧ kind p.location = true := by
  unfold isAt
  split
  · next location hlocate =>
    obtain rfl := location_of_locate hlocate
    simp [hlocate]
  · simp_all
  · simp_all

theorem isFile_iff : fs.isFile p = .ok true ↔ fs.locate p = .ok p.location ∧ fs.hasFile p.location = true :=
  isAt_eq_true_iff

theorem isFolder_iff : fs.isFolder p = .ok true ↔ fs.locate p = .ok p.location ∧ fs.hasFolder p.location = true :=
  isAt_eq_true_iff

/-- A name in a folder leads where it leads to with more folders. -/
theorem locate_child (hfolder : fs.isFolder p = .ok true) (h : fs'.locate (p.child name) = .ok location) :
    fs.locate (p.child name) = .ok location := by
  obtain ⟨hlocate, hthere⟩ := isFolder_iff.1 hfolder
  obtain ⟨⟨-, -, hleads⟩, -⟩ := locate_eq_ok_iff.1 hlocate
  obtain ⟨⟨hzero, hshort, hleads'⟩, hlocation⟩ := locate_eq_ok_iff.1 h
  exact locate_eq_ok_iff.2 ⟨⟨hzero, hshort, leads_append_iff.2 ⟨hleads, hthere, (leads_append_iff.1 hleads').2.2⟩⟩,
    hlocation⟩

/-- **The only file that writing may create** is the one that is written. -/
theorem hasFile_of_put {place : Path} {bytes : List UInt8} (h : (fs.put location bytes).hasFile place = true) :
    place = location ∨ fs.hasFile place = true := by
  by_cases hplace : place = location
  · exact .inl hplace
  · refine .inr ?_
    unfold hasFile at h ⊢
    rw [contents?_put_other fs hplace, hasFolder_put, Bool.not_or, Bool.and_right_comm, Bool.and_eq_true] at h
    exact h.1

/-! ## Entries -/

theorem nodup_eraseDups : (names : List Text) → names.eraseDups.Nodup
  | [] => by simp
  | name :: names => by
    rw [List.eraseDups_cons, List.nodup_cons]
    exact ⟨by simp, nodup_eraseDups _⟩
  termination_by names => names.length
  decreasing_by exact Nat.lt_succ_of_le (List.length_filter_le ..)

/-- **The entries of a folder are in order**, and none is there twice. -/
theorem pairwise_entryNames (fs : FileSystem) (p : Path) : (fs.entryNames p).Pairwise (· < ·) := by
  unfold entryNames
  split
  · exact .nil
  · dsimp only
    generalize List.filterMap _ _ = names
    have hperm := List.mergeSort_perm names.eraseDups fun a b => ¬b < a
    have hnodup : (names.eraseDups.mergeSort fun a b => ¬b < a).Nodup :=
      hperm.nodup_iff.2 (nodup_eraseDups names)
    have hsorted : (names.eraseDups.mergeSort fun a b => ¬b < a).Pairwise (· ≤ ·) := by
      refine (List.pairwise_mergeSort ?_ ?_ _).imp fun h => not_lt.1 (of_decide_eq_true h)
      · intro a b c hab hbc
        simp only [decide_eq_true_eq, not_lt] at hab hbc ⊢
        exact le_trans hab hbc
      · intro a b
        simpa using le_total a b
    exact (hsorted.and hnodup).imp fun h => lt_of_le_of_ne h.1 h.2

/-- **A file in a folder is among its entries.** -/
theorem mem_entryNames (hfolder : fs.isFolder p = .ok true) (hname : name ≠ Path.parentName)
    (hfile : fs.isFile (p.child name) = .ok true) : name ∈ fs.entryNames p := by
  obtain ⟨hlocate, -⟩ := isFolder_iff.1 hfolder
  obtain ⟨-, hthere⟩ := isFile_iff.1 hfile
  rw [Path.location_child hname] at hthere
  unfold entryNames
  rw [hlocate]
  dsimp only
  rw [List.mem_mergeSort, List.mem_eraseDups, List.mem_filterMap]
  refine ⟨p.location.child name, List.mem_filter.2 ⟨List.mem_append_left _ ?_, Path.isBelow_child _ _⟩, ?_⟩
  · obtain ⟨bytes, hbytes⟩ := Option.isSome_iff_exists.1 (Bool.and_eq_true_iff.1 hthere).2
    obtain ⟨file, hfile, rfl⟩ := Option.map_eq_some_iff.1 hbytes
    have hplace : file.1 = p.location.child name := by simpa using List.find?_some hfile
    exact List.mem_map.2 ⟨file, List.mem_of_find?_eq_some hfile, hplace⟩
  · simp [Path.child]

end FileSystem
end Storyboard
