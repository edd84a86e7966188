/-
Which files of a folder a batch works on.

A batch works on the storyboards and texts of a folder in the order of their names, but for the storyboards whose text
is there in some letter case (`Session.hasText_iff`). So what decoding writes is never there before, neither at the
beginning nor when its turn comes (`Session.collectFiles_spares`). A storyboard that is left out has a text among the
files, which need not be its own (`Session.exists_text_of_skipped`).
-/
import Storyboard.Proofs.Batch
import Storyboard.Proofs.Folder
import Storyboard.Proofs.LetterCase
import Storyboard.Proofs.TextFile

namespace Storyboard.Session

open Text

variable {settings : Settings} {files : FileSystem} {folder p q : Path} {supported kept : List Path} {s t : Session}
  {stem suffix name : Text}

/-! ## Kinds of files -/

/-- Storyboards have names. -/
theorem name_ne_nil_of_decode (h : task? q = some .decode) : q.name ≠ [] := by
  intro hname
  unfold task? Path.suffix at h
  rw [hname] at h
  exact absurd h (by decide +kernel)

/-- **A file is a text** when its suffix is that of one in some letter case. -/
theorem task?_child_of_lowercase_eq (hstem : stem ≠ []) (h : lowercase suffix = textSuffix) :
    task? (p.child (stem ++ suffix)) = some .inject := by
  unfold task? Path.suffix
  rw [Path.name_child, splitSuffix_of_lowercase_eq hstem h, h]
  rfl

theorem lowercase_suffix_of_inject (h : task? q = some .inject) : lowercase q.suffix = textSuffix := by
  unfold task? at h
  dsimp only at h
  split at h
  · contradiction
  · split at h
    · assumption
    · contradiction

theorem ne_parentName_of_task? (h : (task? (p.child name)).isSome = true) : name ≠ Path.parentName := by
  rintro rfl
  unfold task? Path.suffix at h
  rw [Path.name_child] at h
  exact absurd h (by decide +kernel)

/-! ## Supported files -/

/-- These are the storyboards and texts right in a folder, in the order of their names. -/
structure Supported (files : FileSystem) (folder : Path) (supported : List Path) : Prop where
  mem_iff : ∀ q, q ∈ supported ↔
    ∃ name, q = folder.child name ∧ files.isFile q = .ok true ∧ (task? q).isSome = true
  sorted : supported.Pairwise fun q q' => q.name < q'.name

theorem Supported.nodup (h : Supported files folder supported) : supported.Nodup :=
  h.sorted.imp fun {q q'} (hlt : q.name < q'.name) (heq : q = q') => lt_irrefl _ (heq ▸ hlt)

/-- There is a storyboard or a text at the path. -/
def isSupported (files : FileSystem) (p : Path) : Bool :=
  (files.isFile p).toOption.getD false && (task? p).isSome

theorem isSupported_iff : isSupported files p = true ↔ files.isFile p = .ok true ∧ (task? p).isSome = true := by
  unfold isSupported
  rw [Bool.and_eq_true]
  cases files.isFile p <;> simp [Except.toOption]

theorem of_supportedAmong {paths : List Path} (h : supportedAmong files paths = .ok supported) :
    supported = paths.filter (isSupported files) := by
  induction paths generalizing supported with
  | nil => exact (Except.ok.inj h).symm
  | cons p paths ih =>
    obtain ⟨there, hthere, h⟩ := except_bind_eq_ok_iff.1 h
    obtain ⟨others, hothers, h⟩ := except_bind_eq_ok_iff.1 h
    rw [List.filter_cons, ← ih hothers, ← Except.ok.inj h, isSupported, hthere]
    rfl

theorem exists_of_supportedAmong {paths : List Path} {e : Error} (h : supportedAmong files paths = .error e) :
    ∃ q ∈ paths, files.isFile q = .error e := by
  induction paths with
  | nil => contradiction
  | cons p paths ih =>
    rcases except_bind_eq_error_iff.1 h with h | ⟨there, -, h⟩
    · exact ⟨p, List.mem_cons_self, h⟩
    · rcases except_bind_eq_error_iff.1 h with h | ⟨others, -, h⟩
      · obtain ⟨q, hq, hfails⟩ := ih h
        exact ⟨q, List.mem_cons_of_mem p hq, hfails⟩
      · contradiction

theorem supported_of_supportedFiles (hfolder : files.isFolder folder = .ok true)
    (h : supportedFiles files folder = .ok supported) : Supported files folder supported := by
  rw [of_supportedAmong h]
  refine ⟨fun q => ?_, ?_⟩
  · rw [List.mem_filter, List.mem_map, isSupported_iff]
    constructor
    · intro hq
      obtain ⟨⟨name, -, rfl⟩, hfile, htask⟩ := hq
      exact ⟨name, rfl, hfile, htask⟩
    · intro hq
      obtain ⟨name, rfl, hfile, htask⟩ := hq
      exact ⟨⟨name, FileSystem.mem_entryNames hfolder (ne_parentName_of_task? htask) hfile, rfl⟩, hfile, htask⟩
  · refine List.Pairwise.sublist List.filter_sublist (List.pairwise_map.2 ?_)
    simpa only [Path.name_child] using files.pairwise_entryNames folder

/-- **Collecting the files of a folder** leaves out those that are skipped, unless one of its entries cannot be
looked at. -/
theorem collectFiles_cases (hfolder : s.files.isFolder folder = .ok true) :
    (∃ e, (∃ name ∈ s.files.entryNames folder, s.files.isFile (folder.child name) = .error e) ∧
        collectFiles folder s = .error e s) ∨
      ∃ supported s₁, Supported s.files folder supported ∧ s₁.files = s.files ∧
        (∀ q ∈ supported, isSkipped supported q = true → .skipped (.ofList q.name) ∈ s₁.notices) ∧
        collectFiles folder s = .ok (some (supported.filter fun q => !isSkipped supported q)) s₁ := by
  cases hsupported : supportedFiles s.files folder with
  | error e =>
    obtain ⟨q, hq, hfails⟩ := exists_of_supportedAmong hsupported
    obtain ⟨name, hname, rfl⟩ := List.mem_map.1 hq
    have hasked : (Attempt.ofExcept (s.files.isFolder folder) : Working Bool) s = .ok true s :=
      Attempt.ofExcept_eq_ok_iff.2 ⟨hfolder, rfl⟩
    have hlisted : (Attempt.ofExcept (supportedFiles s.files folder) : Working (List Path)) s = .error e s := by
      rw [hsupported]
      rfl
    exact .inl ⟨e, ⟨name, hname, hfails⟩, (Attempt.bind_of_ok hasked).trans (Attempt.bind_of_error hlisted)⟩
  | ok supported =>
    refine .inr ⟨supported, _, supported_of_supportedFiles hfolder hsupported, ?_, ?_,
      collectFiles_eq hfolder hsupported⟩
    · rfl
    · intro q hq hskipped
      exact List.mem_append_right _ (List.mem_map.2 ⟨q, List.mem_filter.2 ⟨hq, hskipped⟩, rfl⟩)

/-- A text of the folder is among the files. -/
theorem Supported.mem_text (h : Supported files folder supported) (hstem : stem ≠ [])
    (hsuffix : lowercase suffix = textSuffix) (hfile : files.isFile (folder.child (stem ++ suffix)) = .ok true) :
    folder.child (stem ++ suffix) ∈ supported := by
  have htask : (task? (folder.child (stem ++ suffix))).isSome = true := by
    rw [task?_child_of_lowercase_eq hstem hsuffix]
    rfl
  exact (h.mem_iff _).2 ⟨_, rfl, hfile, htask⟩

/-- Texts are never skipped. -/
theorem isSkipped_of_inject (h : task? q = some .inject) : isSkipped supported q = false := by
  rw [isSkipped, h]
  rfl

/-- **A storyboard's text is among the files** when some file of the folder has its name in some letter case. -/
theorem hasText_iff (h : Supported files folder supported) (hq : task? q = some .decode) :
    hasText supported q = true ↔
      ∃ name, files.isFile (folder.child name) = .ok true ∧ lowercase name = lowercase (q.name ++ textSuffix) := by
  unfold hasText
  rw [List.contains_iff_mem, List.mem_map]
  constructor
  · intro htext
    obtain ⟨t, ht, hlower⟩ := htext
    obtain ⟨name, rfl, hfile, -⟩ := (h.mem_iff t).1 ht
    rw [Path.name_child] at hlower
    exact ⟨name, hfile, hlower⟩
  · intro htext
    obtain ⟨name, hfile, hlower⟩ := htext
    obtain ⟨stem, suffix, rfl, hstem, hsuffix⟩ := exists_suffix_of_lowercase_eq (name_ne_nil_of_decode hq) hlower
    refine ⟨_, h.mem_text hstem hsuffix hfile, ?_⟩
    rw [Path.name_child, hlower]

/-- **A storyboard is skipped** when some file of the folder has the name of its text in some letter case. -/
theorem isSkipped_iff (h : Supported files folder supported) : isSkipped supported q = true ↔
    task? q = some .decode ∧
      ∃ name, files.isFile (folder.child name) = .ok true ∧ lowercase name = lowercase (q.name ++ textSuffix) := by
  unfold isSkipped
  rw [Bool.and_eq_true, decide_eq_true_eq]
  exact and_congr_right fun hq => hasText_iff h hq

/-! ## What is there when a file's turn comes -/

/-- Where the text of a storyboard goes. -/
def textOf (q : Path) : Path := q.withName (q.name ++ textSuffix)

/-- `Stores q files files'`: work on the file `q` has written nothing, or the text of a storyboard, or for a text the
storyboard that is there already. -/
inductive Stores (q : Path) (files : FileSystem) : FileSystem → Prop where
  | nothing : Stores q files files
  | text {bytes : List UInt8} : task? q = some .decode → files.locate (textOf q) = .ok (textOf q).location →
      files.hasFolder (textOf q).location = false → Stores q files (files.put (textOf q).location bytes)
  | storyboard {bytes : List UInt8} : task? q = some .inject → files.isFile q.withoutSuffix = .ok true →
      Stores q files (files.put q.withoutSuffix.location bytes)

/-- Work that fails has written nothing, and work that succeeds what work on the file `q` does. -/
def WorksOn (q : Path) {α : Type} (work : Working α) : Prop :=
  ∀ s, Attempt.Ends (fun _ s' => Stores q s.files s'.files) (fun _ s' => s'.files = s.files) (work s)

theorem worksOn_decodeFile (hq : task? q = some .decode) : WorksOn q (decodeFile settings q) := by
  intro s
  refine (writes_decodeFile s).self.imp (fun _ s' h => ?_) fun _ _ h => h
  obtain ⟨-, hdecode⟩ := h
  obtain ⟨_, _, _, -, -, -, -, hwrite⟩ := of_decodeFile hdecode
  obtain ⟨location, hlocate, hfolder, hput⟩ := FileSystem.of_write hwrite
  obtain rfl := FileSystem.location_of_locate hlocate
  rw [hput]
  exact .text hq hlocate hfolder

theorem worksOn_injectFile (hq : task? q = some .inject) : WorksOn q (injectFile settings q) := by
  intro s
  refine (writes_injectFile s).self.imp (fun _ s' h => ?_) fun _ _ h => h
  obtain ⟨-, hinject⟩ := h
  obtain ⟨_, s₁, hrequire, hwork⟩ := Attempt.bind_eq_ok.1 hinject
  obtain ⟨hfile, rfl⟩ := of_requireStoryboard hrequire
  obtain ⟨lines, s₂, hlines, hwork⟩ := Attempt.bind_eq_ok.1 hwork
  have hsame := looks_readLines (p := q) s₁
  rw [hlines] at hsame
  obtain ⟨_, s₃, hlines, hreport⟩ := Attempt.bind_eq_ok.1 hwork
  cases hreport
  obtain ⟨-, _, _, w, -, -, -, hreplace⟩ := of_changeStoryboard hlines
  rw [show s₂.files = s₁.files from hsame] at hreplace
  obtain ⟨location, hlocate, -, hput⟩ := FileSystem.of_replace hreplace
  obtain rfl := FileSystem.location_of_locate hlocate
  show Stores q _ s₃.files
  rw [hput]
  exact .storyboard hq hfile

/-- **What working on a file does to the files**, whether it goes well or not. -/
theorem stores_processFile (settings : Settings) (q : Path) (s : Session) :
    Stores q s.files (Attempt.final (processFile settings q s)).files := by
  have hwork : WorksOn q (work settings q) := by
    unfold work
    cases htask : task? q with
    | none => exact fun _ => .nothing
    | some task =>
      cases task with
      | decode => exact worksOn_decodeFile htask
      | inject => exact worksOn_injectFile htask
  have hends := hwork s
  rw [processFile_eq]
  cases hresult : work settings q s with
  | ok _ s' =>
    rw [hresult] at hends
    exact hends
  | error e s' =>
    rw [hresult] at hends
    have hnothing : Stores q s.files s'.files := by
      rw [show s'.files = s.files from hends]
      exact .nothing
    dsimp only
    split <;> exact hnothing

/-- Only the text of a storyboard comes to be where no file was. -/
theorem Stores.hasFile {files' : FileSystem} {place : Path} (h : Stores q files files')
    (hfile : files'.hasFile place = true) :
    files.hasFile place = true ∨ task? q = some .decode ∧ place = (textOf q).location := by
  cases h with
  | nothing => exact .inl hfile
  | text hq _ _ => exact (FileSystem.hasFile_of_put hfile).symm.imp_right fun hplace => ⟨hq, hplace⟩
  | storyboard _ hthere =>
    refine .inl ((FileSystem.hasFile_of_put hfile).elim (fun hplace => ?_) id)
    rw [hplace]
    exact (FileSystem.isFile_iff.1 hthere).2

/-- Decoding to where no file is leaves all contents as they are. -/
theorem Stores.contents {files' : FileSystem} {place : Path} {bytes : List UInt8} (h : Stores q files files')
    (hq : task? q = some .decode) (hclear : files.isFile (textOf q) ≠ .ok true)
    (hplace : files.contents? place = some bytes) : files'.contents? place = some bytes := by
  cases h with
  | nothing => exact hplace
  | storyboard hinject => exact absurd (hq.symm.trans hinject) (by decide)
  | text _ hlocate hfolder =>
    rw [FileSystem.contents?_put_other, hplace]
    rintro rfl
    refine hclear (FileSystem.isFile_iff.2 ⟨hlocate, ?_⟩)
    simp [FileSystem.hasFile, hfolder, hplace]

/-- **Files that are there in the midst of a batch** were there before, or are texts of storyboards that have been
decoded. -/
theorem hasFile_of_mapM {done : List Path} {results : List Bool} {place : Path}
    (h : done.mapM (processFile settings) s = .ok results t) (hfile : t.files.hasFile place = true) :
    s.files.hasFile place = true ∨ ∃ r ∈ done, task? r = some .decode ∧ place = (textOf r).location := by
  induction done generalizing s results with
  | nil =>
    cases h
    exact .inl hfile
  | cons r done ih =>
    rw [List.mapM_cons] at h
    obtain ⟨succeeded, s₁, hfirst, h⟩ := Attempt.bind_eq_ok.1 h
    obtain ⟨others, s₂, hothers, h⟩ := Attempt.bind_eq_ok.1 h
    cases h
    have hstores := stores_processFile settings r s
    rw [hfirst] at hstores
    rcases ih hothers with hthere | ⟨r', hr', hmade⟩
    · exact (hstores.hasFile hthere).imp_right fun hmade => ⟨r, List.mem_cons_self, hmade⟩
    · exact .inr ⟨r', List.mem_cons_of_mem r hr', hmade⟩

theorem textOf_child (p : Path) (name : Text) : textOf (p.child name) = p.child (name ++ textSuffix) := by
  rw [textOf, Path.withName_child, Path.name_child]

/-- The texts of two storyboards of a folder are two files. -/
theorem location_textOf_child (p : Path) (name : Text) :
    (textOf (p.child name)).location = p.location.child (name ++ textSuffix) := by
  have hname : name ++ textSuffix ≠ Path.parentName := by
    intro h
    have hlast := congrArg List.getLast? h
    rw [List.getLast?_append] at hlast
    have hletter : 't' = '.' := Option.some.inj hlast
    contradiction
  rw [textOf_child, Path.location_child hname]

/-! ## Batches -/

/-- **A batch never overwrites a file by decoding.** In a folder, unless one of its entries cannot be looked at, the
files that are worked on are some of the storyboards and texts there, each once and in the order of their names. All
texts are among them, and those storyboards for which no file has the name of their text in any letter case. When the
turn of such a storyboard comes, no file is where its text goes, and decoding it leaves the contents of all files as
they are. -/
theorem collectFiles_spares (hfolder : s.files.isFolder folder = .ok true) :
    (∃ e, (∃ name ∈ s.files.entryNames folder, s.files.isFile (folder.child name) = .error e) ∧
        collectFiles folder s = .error e s) ∨
      ∃ supported kept s₁, collectFiles folder s = .ok (some kept) s₁ ∧ s₁.files = s.files ∧
        Supported s.files folder supported ∧ kept.Sublist supported ∧ kept.Nodup ∧
        (∀ q, q ∈ kept ↔ q ∈ supported ∧ (task? q = some .decode →
          ∀ name, s.files.isFile (folder.child name) = .ok true →
            lowercase name ≠ lowercase (q.name ++ textSuffix))) ∧
        ∀ settings done q rest results t, kept = done ++ q :: rest → task? q = some .decode →
          done.mapM (processFile settings) s₁ = .ok results t →
          t.files.isFile (q.withName (q.name ++ textSuffix)) ≠ .ok true ∧
          ∀ place bytes, t.files.contents? place = some bytes →
            (Attempt.final (processFile settings q t)).files.contents? place = some bytes := by
  rcases collectFiles_cases hfolder with hfails | ⟨supported, s₁, hsupported, hfiles, -, hcollect⟩
  · exact .inl hfails
  generalize hkept : (supported.filter fun q => !isSkipped supported q) = kept at hcollect
  have hsublist : kept.Sublist supported := hkept ▸ List.filter_sublist
  have hnodup : kept.Nodup := hsupported.nodup.sublist hsublist
  have hmem : ∀ q, q ∈ kept ↔ q ∈ supported ∧ (task? q = some .decode →
      ∀ name, s.files.isFile (folder.child name) = .ok true → lowercase name ≠ lowercase (q.name ++ textSuffix)) := by
    intro q
    rw [← hkept, List.mem_filter, Bool.not_eq_true', ← Bool.not_eq_true, isSkipped_iff hsupported]
    simp only [not_and, not_exists, ne_eq]
  refine .inr ⟨supported, kept, s₁, hcollect, hfiles, hsupported, hsublist, hnodup, hmem, ?_⟩
  intro settings done q rest results t hturn hq hdone
  have hclear : t.files.isFile (textOf q) ≠ .ok true := by
    intro hthere
    obtain ⟨hin, hnone⟩ := (hmem q).1 (by rw [hturn]; simp)
    obtain ⟨name, rfl, -, -⟩ := (hsupported.mem_iff q).1 hin
    obtain ⟨hlocate, hfile⟩ := FileSystem.isFile_iff.1 hthere
    rcases hasFile_of_mapM hdone hfile with hbefore | ⟨r, hr, -, hplace⟩
    · -- It was there at the beginning, with the very name that no file has in any letter case.
      rw [hfiles] at hbefore
      rw [textOf_child] at hlocate hbefore
      refine hnone hq (name ++ textSuffix) ?_ (by rw [Path.name_child])
      exact FileSystem.isFile_iff.2 ⟨FileSystem.locate_child hfolder hlocate, hbefore⟩
    · -- It is the text of another storyboard, which would have the same name.
      obtain ⟨other, rfl, -, -⟩ := (hsupported.mem_iff r).1 (hsublist.subset (by rw [hturn]; simp [hr]))
      rw [location_textOf_child, location_textOf_child, Path.child_inj, List.append_left_inj] at hplace
      rw [← hplace] at hr
      rw [hturn] at hnodup
      exact (List.nodup_append.1 hnodup).2.2 _ hr _ List.mem_cons_self rfl
  exact ⟨hclear, fun place bytes => (stores_processFile settings q t).contents hq hclear⟩

/-- A text is injected into the storyboard beside it, and another storyboard is decoded to where nothing is. -/
theorem collectFiles_spares_folder : ∃ (settings : Settings) (s s₁ t : Session) (folder text storyboard : Path),
    s.files.isFolder folder = .ok true ∧ collectFiles folder s = .ok (some [text, storyboard]) s₁ ∧
      [text].mapM (processFile settings) s₁ = .ok [true] t ∧
      t.files.isFile (storyboard.withName (storyboard.name ++ textSuffix)) ≠ .ok true ∧
      ∀ place bytes, t.files.contents? place = some bytes →
        (Attempt.final (processFile settings storyboard t)).files.contents? place = some bytes := by
  let settings : Settings := ⟨some "ascii", some 16⟩
  let folder : Path := .ofText "d".toList
  let edited := folder.child "a.stb".toList
  let text := folder.child "a.stb.txt".toList
  let storyboard := folder.child "b.stb".toList
  let s : Session := { files := { files := [
    (edited, Image.small.bytes),
    (text, Encoding.Utf8.encode "exit(0);".toList),
    (storyboard, Image.small.bytes)] } }
  have hfolder : s.files.isFolder folder = .ok true := by decide +kernel
  have hentries : s.files.entryNames folder = ["a.stb".toList, "a.stb.txt".toList, "b.stb".toList] :=
    FileSystem.entryNames_of_locate rfl (by decide +kernel) (by decide +kernel)
  have hsupported : supportedFiles s.files folder = .ok [edited, text, storyboard] := by
    unfold supportedFiles
    rw [hentries]
    decide +kernel
  have hkept : [edited, text, storyboard].filter (fun q => !isSkipped [edited, text, storyboard] q)
      = [text, storyboard] := by
    decide +kernel
  have hskipped : [edited, text, storyboard].filter (isSkipped [edited, text, storyboard]) = [edited] := by
    decide +kernel
  let s₁ : Session := { s with notices := [.skipped "a.stb"] }
  have hcollect : collectFiles folder s = .ok (some [text, storyboard]) s₁ := by
    rw [collectFiles_eq hfolder hsupported, hkept, hskipped]
    rfl
  rcases collectFiles_spares hfolder with ⟨e, -, hfails⟩ | ⟨_, kept, s₂, hcollected, -, -, -, -, -, hturns⟩
  · cases hfails.symm.trans hcollect
  cases hcollected.symm.trans hcollect
  obtain ⟨t, hdone⟩ : ∃ t, [text].mapM (processFile settings) s₁ = .ok [true] t :=
    Attempt.outcome_eq_ok_iff.1 (by decide +kernel)
  obtain ⟨hclear, hcontents⟩ := hturns settings [text] storyboard [] [true] t rfl (by decide +kernel) hdone
  exact ⟨settings, s, s₁, t, folder, text, storyboard, hfolder, hcollect, hdone, hclear, hcontents⟩

/-- **A storyboard that is left out** is reported, and there is a text among the files that has the name of its text in
some letter case. A text that is injected into it is among them exactly when some file of the folder has the very name
of the storyboard in front of the suffix. -/
theorem exists_text_of_skipped {s₁ : Session} (hfolder : s.files.isFolder folder = .ok true)
    (hcollect : collectFiles folder s = .ok (some kept) s₁) (hfile : s.files.isFile (folder.child name) = .ok true)
    (hstoryboard : task? (folder.child name) = some .decode) (hskipped : folder.child name ∉ kept) :
    .skipped (.ofList name) ∈ s₁.notices ∧
      (∃ t ∈ kept, task? t = some .inject ∧ lowercase t.name = lowercase (name ++ textSuffix)) ∧
      ((∃ t ∈ kept, task? t = some .inject ∧ t.withoutSuffix = folder.child name) ↔
        ∃ suffix, lowercase suffix = textSuffix ∧ s.files.isFile (folder.child (name ++ suffix)) = .ok true) := by
  rcases collectFiles_cases hfolder with ⟨e, -, hfails⟩ | ⟨supported, s₂, hsupported, -, hnotices, hcollect'⟩
  · cases hfails.symm.trans hcollect
  cases hcollect'.symm.trans hcollect
  have hin : folder.child name ∈ supported := (hsupported.mem_iff _).2 ⟨name, rfl, hfile, by rw [hstoryboard]; rfl⟩
  have hskip : isSkipped supported (folder.child name) = true := by
    by_contra hkeep
    exact hskipped (List.mem_filter.2 ⟨hin, by simpa using hkeep⟩)
  have hnotice := hnotices _ hin hskip
  rw [Path.name_child] at hnotice
  have hname := name_ne_nil_of_decode hstoryboard
  rw [Path.name_child] at hname
  -- Every text of the folder is worked on.
  have hkept : ∀ stem suffix, stem ≠ [] → lowercase suffix = textSuffix →
      s.files.isFile (folder.child (stem ++ suffix)) = .ok true →
      folder.child (stem ++ suffix) ∈ supported.filter (fun q => !isSkipped supported q) := by
    intro stem suffix hstem hsuffix hthere
    refine List.mem_filter.2 ⟨hsupported.mem_text hstem hsuffix hthere, ?_⟩
    rw [isSkipped_of_inject (task?_child_of_lowercase_eq hstem hsuffix)]
    rfl
  refine ⟨hnotice, ?_, ?_⟩
  · obtain ⟨-, other, hother, hlower⟩ := (isSkipped_iff hsupported).1 hskip
    rw [Path.name_child] at hlower
    obtain ⟨stem, suffix, rfl, hstem, hsuffix⟩ := exists_suffix_of_lowercase_eq hname hlower
    refine ⟨_, hkept stem suffix hstem hsuffix hother, task?_child_of_lowercase_eq hstem hsuffix, ?_⟩
    rw [Path.name_child, hlower]
  · constructor
    · intro h
      obtain ⟨t, ht, htask, hcompanion⟩ := h
      obtain ⟨other, rfl, hother, -⟩ := (hsupported.mem_iff t).1 (List.mem_of_mem_filter ht)
      have hsuffix := lowercase_suffix_of_inject htask
      rw [Path.withoutSuffix, Path.withName_child, Path.child_inj, Path.name_child] at hcompanion
      rw [Path.suffix, Path.name_child] at hsuffix
      refine ⟨_, hsuffix, ?_⟩
      rwa [← hcompanion, Path.splitSuffix_append]
    · intro h
      obtain ⟨suffix, hsuffix, hthere⟩ := h
      refine ⟨_, hkept name suffix hname hsuffix hthere, task?_child_of_lowercase_eq hname hsuffix, ?_⟩
      rw [Path.withoutSuffix, Path.withName_child, Path.name_child, splitSuffix_of_lowercase_eq hname hsuffix]

/-- The suffix of the text may be in any letter case. -/
theorem exists_text_of_skipped_folder : ∃ (s s₁ : Session) (folder storyboard : Path) (kept : List Path),
    s.files.isFolder folder = .ok true ∧ collectFiles folder s = .ok (some kept) s₁ ∧
      s.files.isFile storyboard = .ok true ∧ task? storyboard = some .decode ∧ storyboard ∉ kept ∧
      .skipped "a.stb" ∈ s₁.notices ∧ ∃ t ∈ kept, task? t = some .inject ∧ t.withoutSuffix = storyboard := by
  let folder : Path := .ofText "d".toList
  let storyboard := folder.child "a.stb".toList
  let text := folder.child "a.stb.TXT".toList
  let s : Session := { files := { files := [(storyboard, []), (text, [])] } }
  have hfolder : s.files.isFolder folder = .ok true := by decide +kernel
  have hentries : s.files.entryNames folder = ["a.stb".toList, "a.stb.TXT".toList] :=
    FileSystem.entryNames_of_locate rfl (by decide +kernel) (by decide +kernel)
  have hsupported : supportedFiles s.files folder = .ok [storyboard, text] := by
    unfold supportedFiles
    rw [hentries]
    decide +kernel
  have hcollect := collectFiles_eq hfolder hsupported
  have hfile : s.files.isFile storyboard = .ok true := by decide +kernel
  have hstoryboard : task? storyboard = some .decode := by decide +kernel
  have hskipped : storyboard ∉ [storyboard, text].filter fun q => !isSkipped [storyboard, text] q := by
    decide +kernel
  obtain ⟨hnotice, -, hinjected⟩ := exists_text_of_skipped hfolder hcollect hfile hstoryboard hskipped
  have htext := hinjected.2 ⟨".TXT".toList, by decide +kernel, by decide +kernel⟩
  exact ⟨s, _, folder, storyboard, _, hfolder, hcollect, hfile, hstoryboard, hskipped, hnotice, htext⟩

/-- A text of another letter case is injected elsewhere: of the storyboards `A.STB` and `a.stb`, the text `A.STB.TXT`
is the first one's, and both are left out. -/
theorem not_exists_text_of_skipped : ¬∀ (s s₁ : Session) (folder : Path) (name : Text) (kept : List Path),
    s.files.isFolder folder = .ok true → collectFiles folder s = .ok (some kept) s₁ →
    s.files.isFile (folder.child name) = .ok true → task? (folder.child name) = some .decode →
    folder.child name ∉ kept → ∃ t ∈ kept, task? t = some .inject ∧ t.withoutSuffix = folder.child name := by
  intro claim
  let folder : Path := .ofText "d".toList
  let upper := folder.child "A.STB".toList
  let text := folder.child "A.STB.TXT".toList
  let lower := folder.child "a.stb".toList
  let s : Session := { files := { files := [(upper, []), (text, []), (lower, [])] } }
  have hfolder : s.files.isFolder folder = .ok true := by decide +kernel
  have hentries : s.files.entryNames folder = ["A.STB".toList, "A.STB.TXT".toList, "a.stb".toList] :=
    FileSystem.entryNames_of_locate rfl (by decide +kernel) (by decide +kernel)
  have hsupported : supportedFiles s.files folder = .ok [upper, text, lower] := by
    unfold supportedFiles
    rw [hentries]
    decide +kernel
  have hcollect := collectFiles_eq hfolder hsupported
  have hkept : [upper, text, lower].filter (fun q => !isSkipped [upper, text, lower] q) = [text] := by
    decide +kernel
  rw [hkept] at hcollect
  obtain ⟨t, ht, -, hcompanion⟩ := claim s _ folder "a.stb".toList [text] hfolder hcollect (by decide +kernel)
    (by decide +kernel) (by decide +kernel)
  rw [List.mem_singleton.1 ht] at hcompanion
  exact absurd hcompanion (by decide +kernel)

end Storyboard.Session
