import Mathlib
import CpioArchive.Creation.Archive
import CpioArchive.Proofs.Places

/-!
# Which inputs are accepted

An input is a path with a name at its end that leads to a regular file.  Whether symbolic links are
followed makes a difference only where the path ends in one.

* `Path.fileName?_eq_some_iff` — the name of a path, behind its last separator;
* `Lookup.IsConsistent` — what holds of a host that does not change meanwhile, and
  `FileSystem.isConsistent_lookup`, that it holds of every file system;
* `Lookup.Refuses` — why a host has no regular file to offer for a path;
* `Lookup.IsConsistent.ofPath_of_other` — on such a host the links are looked at first, and what is
  opened decides about all other paths;
* `skip_policy` — which inputs are accepted, and why the others are not.
-/

namespace CpioArchive

/-! ## Names -/

namespace Path

/-- A directory as it stands in front of a name: nothing, or something that ends in a separator. -/
def IsDirectoryPart (directory : Bytes) : Prop :=
  directory = [] ∨ directory.getLast? = some slash

/-- Every path is a directory part and a rest without separators. -/
theorem exists_directoryPart (path : Bytes) :
    ∃ directory rest, path = directory ++ rest ∧ IsDirectoryPart directory ∧ slash ∉ rest := by
  induction path with
  | nil => exact ⟨[], [], rfl, .inl rfl, List.not_mem_nil⟩
  | cons b path ih =>
    obtain ⟨directory, rest, rfl, hdirectory, hrest⟩ := ih
    rcases hdirectory with rfl | hlast
    · by_cases hb : b = slash
      · exact ⟨[b], rest, rfl, .inr (congrArg some hb), hrest⟩
      · refine ⟨[], b :: rest, rfl, .inl rfl, ?_⟩
        exact List.not_mem_cons_of_ne_of_not_mem (Ne.symm hb) hrest
    · refine ⟨b :: directory, rest, rfl, .inr ?_, hrest⟩
      rw [List.getLast?_cons, hlast]
      rfl

theorem getLast?_splitAtSlashes {directory rest : Bytes} (hdirectory : IsDirectoryPart directory)
    (hrest : slash ∉ rest) : (splitAtSlashes (directory ++ rest)).getLast? = some rest := by
  rw [splitAtSlashes]
  rcases hdirectory with rfl | hlast
  · rw [List.nil_append, List.splitOn_eq_singleton hrest, List.getLast?_singleton]
  · obtain ⟨directory, rfl⟩ := List.getLast?_eq_some_iff.1 hlast
    rw [List.append_assoc, List.singleton_append, List.splitOn_append_cons_self,
      List.splitOn_eq_singleton hrest, List.getLast?_concat]

/-- **The name of a path is what follows its last separator**, if anything does. -/
theorem fileName?_eq_some_iff {path name : Bytes} :
    fileName? path = some name ↔
      ∃ directory, path = directory ++ name ∧ name ≠ [] ∧ slash ∉ name ∧
        IsDirectoryPart directory := by
  rw [fileName?]
  constructor
  · intro h
    obtain ⟨directory, rest, rfl, hdirectory, hrest⟩ := exists_directoryPart path
    rw [getLast?_splitAtSlashes hdirectory hrest] at h
    cases rest with
    | nil => cases h
    | cons b rest =>
      cases h
      exact ⟨directory, rfl, List.cons_ne_nil b rest, hrest, hdirectory⟩
  · rintro ⟨directory, rfl, hne, hname, hdirectory⟩
    rw [getLast?_splitAtSlashes hdirectory hname]
    cases name with
    | nil => exact absurd rfl hne
    | cons b name => rfl

end Path

/-! ## Hosts -/

namespace Lookup

variable {ς : Type}

/-- What a host answers at one moment fits together: a path that leads nowhere cannot be opened
either, and for the same reason; where links are not followed, a path that ends in one cannot be
opened, and every other path is opened as if they were. -/
structure IsConsistent (host : Lookup ς) : Prop where
  openFile_of_error : ∀ {path : Bytes} {cause : IoError}, host.kindOf path = .error cause →
    ∀ followLast, host.openFile followLast path = .error cause
  openFile_of_symlink : ∀ {path : Bytes}, host.kindOf path = .ok .symlink →
    ∃ cause, host.openFile false path = .error cause
  openFile_of_other : ∀ {path : Bytes} {kind : FileKind}, host.kindOf path = .ok kind →
    kind ≠ .symlink → host.openFile false path = host.openFile true path

/-- Why a host has no regular file to offer for a path. -/
inductive Refuses (host : Lookup ς) (followLast : Bool) (path : Bytes) : SkipReason → Prop
  | cannotOpen {cause : IoError} (hopen : host.openFile followLast path = .error cause) :
      Refuses host followLast path (.cannotOpen cause)
  | cannotStat {file : ς} {cause : IoError} (hopen : host.openFile followLast path = .ok file)
      (hstat : host.statusOf file = .error cause) : Refuses host followLast path (.cannotStat cause)
  | notRegular {file : ς} {status : Status} (hopen : host.openFile followLast path = .ok file)
      (hstat : host.statusOf file = .ok status) (hkind : status.kind ≠ .regular) :
      Refuses host followLast path (.notRegular status.kind)

/-- The input that a host offers for a path: the file that is opened, if it is a regular one. -/
structure Offers (host : Lookup ς) (followLast : Bool) (path : Bytes) (input : Resolved ς) :
    Prop where
  path_eq : input.path = path
  openFile : host.openFile followLast path = .ok input.content
  statusOf : host.statusOf input.content = .ok input.status
  kind : input.status.kind = .regular

end Lookup

namespace FileSystem

/-- **Only a symbolic link at its end makes a difference** to where a path leads. -/
theorem follow_followLast (fs : FileSystem) (creating : Bool) (links : Nat) (trail : List FileId)
    (steps : List Path.Component) :
    fs.follow ⟨true, creating⟩ links trail steps = fs.follow ⟨false, creating⟩ links trail steps ∨
      ∃ id target, fs.follow ⟨false, creating⟩ links trail steps = .ok (.present id) ∧
        fs.node? id = some (.symlink target) := by
  fun_induction FileSystem.follow fs ⟨false, creating⟩ links trail steps with
  | case1 links trail => exact .inl (by rw [FileSystem.follow])
  | case2 links trail rest ih =>
    rw [FileSystem.follow]
    exact ih
  | case3 links trail rest ih =>
    rw [FileSystem.follow]
    exact ih
  | case4 links trail rest ih =>
    rw [FileSystem.follow]
    exact ih
  | case5 links trail name rest hcreating =>
    left
    rw [FileSystem.follow]
    exact if_pos hcreating
  | case6 links trail name rest hcreating hlength =>
    left
    rw [FileSystem.follow]
    dsimp only
    rw [if_neg hcreating, if_pos hlength]
  | case7 links trail name directory hlength hmember hcreating =>
    left
    rw [FileSystem.follow]
    dsimp only
    rw [if_neg hcreating, if_neg hlength, hmember]
    rfl
  | case8 links trail name rest directory hcreating hlength hmember hrest =>
    left
    rw [FileSystem.follow]
    dsimp only
    rw [if_neg hcreating, if_neg hlength, hmember]
    exact if_neg hrest
  | case9 links trail name rest directory hcreating hlength member hmember members hdirectory ih =>
    rw [follow_member hcreating hlength hmember, hdirectory]
    exact ih
  | case10 links trail name rest directory hcreating hlength member hmember link hlink hstop =>
    exact .inr ⟨member, link, rfl, hlink⟩
  | case11 trail name rest directory hcreating hlength member hmember link hlink hgo =>
    left
    rw [follow_member hcreating hlength hmember, hlink]
  | case12 trail name rest directory hcreating hlength member hmember link hlink hgo links ih =>
    rw [follow_member hcreating hlength hmember, hlink]
    exact ih
  | case13 links trail name directory hlength member hmember hdirectory hlink hcreating =>
    left
    rw [follow_member hcreating hlength hmember]
    split
    · exact (hdirectory _ ‹_›).elim
    · exact (hlink _ ‹_›).elim
    · rfl
  | case14 links trail name rest directory hcreating hlength member hmember hrest hdirectory hlink =>
    left
    rw [follow_member hcreating hlength hmember]
    split
    · exact (hdirectory _ ‹_›).elim
    · exact (hlink _ ‹_›).elim
    · exact if_neg hrest

theorem locate_followLast (fs : FileSystem) (creating : Bool) (path : Bytes) :
    fs.locate ⟨true, creating⟩ path = fs.locate ⟨false, creating⟩ path ∨
      ∃ id target, fs.locate ⟨false, creating⟩ path = .ok (.present id) ∧
        fs.node? id = some (.symlink target) := by
  rw [locate, locate]
  by_cases hnul : nul ∈ path
  · simp only [if_pos hnul, true_or]
  · by_cases hnil : path = []
    · simp only [if_neg hnul, if_pos hnil, true_or]
    · by_cases hlong : longestPath < path.length
      · simp only [if_neg hnul, if_neg hnil, if_pos hlong, true_or]
      · simp only [if_neg hnul, if_neg hnil, if_neg hlong]
        exact fs.follow_followLast creating mostSymlinks _ _

theorem find_followLast (fs : FileSystem) (path : Bytes) :
    fs.find true path = fs.find false path ∨
      ∃ id target, fs.find false path = .ok id ∧ fs.node? id = some (.symlink target) := by
  rw [find, find]
  rcases fs.locate_followLast false path with heq | ⟨id, target, hlocate, hnode⟩
  · rw [heq]
    exact .inl rfl
  · rw [hlocate]
    exact .inr ⟨id, target, rfl, hnode⟩

theorem kindOf_lookup_eq_symlink_iff {fs : FileSystem} {path : Bytes} :
    fs.lookup.kindOf path = .ok .symlink ↔
      ∃ id target, fs.find false path = .ok id ∧ fs.node? id = some (.symlink target) := by
  change (fs.find false path).map (fun id => (fs.node? id).elim .unknown (·.kind)) = _ ↔ _
  cases fs.find false path with
  | error cause => simp [Except.map]
  | ok id =>
    cases hnode : fs.node? id with
    | none => simp [Except.map, hnode]
    | some node => cases node <;> simp [Except.map, hnode, Node.kind]

/-- **What a file system answers fits together.** -/
theorem isConsistent_lookup (fs : FileSystem) : fs.lookup.IsConsistent where
  openFile_of_error {path cause} hkind followLast := by
    have hfalse : fs.find false path = .error cause := by
      change (fs.find false path).map _ = _ at hkind
      cases hfind : fs.find false path with
      | error e =>
        rw [hfind] at hkind
        cases hkind
        rfl
      | ok id =>
        rw [hfind] at hkind
        cases hkind
    have hfind : fs.find followLast path = .error cause := by
      cases followLast with
      | false => exact hfalse
      | true =>
        rcases fs.find_followLast path with heq | ⟨id, target, hlink, -⟩
        · rw [heq, hfalse]
        · rw [hfalse] at hlink
          cases hlink
    change fs.openForReading followLast path = _
    rw [openForReading, hfind]
  openFile_of_symlink {path} hkind := by
    obtain ⟨id, target, hfind, hnode⟩ := kindOf_lookup_eq_symlink_iff.1 hkind
    refine ⟨.tooManySymlinks, ?_⟩
    change fs.openForReading false path = _
    rw [openForReading, hfind]
    dsimp only
    rw [hnode]
  openFile_of_other {path kind} hkind hne := by
    change fs.openForReading false path = fs.openForReading true path
    rw [openForReading, openForReading]
    rcases fs.find_followLast path with heq | hlink
    · rw [heq]
    · rw [kindOf_lookup_eq_symlink_iff.2 hlink] at hkind
      cases hkind
      exact absurd rfl hne

end FileSystem

/-! ## The policy -/

section Policy

variable {ς : Type} {host : Lookup ς} {path name : Bytes}

/-- An opened file is accepted if it is what the host offers. -/
theorem Resolved.ofOpened_eq_ok_iff {followLast : Bool} {file : ς} {input : Resolved ς}
    (hopen : host.openFile followLast path = .ok file) :
    ofOpened host path name file = .ok input ↔
      input.name = name ∧ host.Offers followLast path input := by
  rw [ofOpened]
  constructor
  · intro h
    cases hstat : host.statusOf file with
    | error cause =>
      rw [hstat] at h
      cases h
    | ok status =>
      rw [hstat] at h
      dsimp only at h
      split at h
      next hkind =>
        cases h
        exact ⟨rfl, rfl, hopen, hstat, hkind⟩
      · cases h
  · rintro ⟨rfl, hoffers⟩
    obtain ⟨path', name, status, content⟩ := input
    obtain ⟨rfl, hopen', hstat, hkind⟩ := hoffers
    obtain rfl : file = content := Except.ok.inj (hopen.symm.trans hopen')
    rw [hstat]
    exact if_pos hkind

/-- Otherwise it is refused. -/
theorem Resolved.ofOpened_eq_error_iff {followLast : Bool} {file : ς} {reason : SkipReason}
    (hopen : host.openFile followLast path = .ok file) :
    ofOpened host path name file = .error reason ↔ host.Refuses followLast path reason := by
  rw [ofOpened]
  constructor
  · intro h
    cases hstat : host.statusOf file with
    | error cause =>
      rw [hstat] at h
      cases h
      exact .cannotStat hopen hstat
    | ok status =>
      rw [hstat] at h
      dsimp only at h
      split at h
      · cases h
      next hkind =>
        cases h
        exact .notRegular hopen hstat hkind
  · intro h
    cases h with
    | cannotOpen hopen' =>
      rw [hopen] at hopen'
      cases hopen'
    | cannotStat hopen' hstat =>
      obtain rfl := Except.ok.inj (hopen.symm.trans hopen')
      rw [hstat]
    | notRegular hopen' hstat hkind =>
      obtain rfl := Except.ok.inj (hopen.symm.trans hopen')
      rw [hstat]
      exact if_neg hkind

/-- A path without a name is passed over, whatever the host would answer. -/
theorem Resolved.ofPathAcross_of_none (h : Path.fileName? path = none) (before host : Lookup ς)
    (settings : Settings) : ofPathAcross before host settings path = .error .noFileName := by
  rw [ofPathAcross, h]

namespace Lookup.IsConsistent

/-- Where a path does not end in a link, it does not matter whether links are followed. -/
theorem openFile_eq (hhost : host.IsConsistent) (hkind : host.kindOf path ≠ .ok .symlink)
    (followLast : Bool) : host.openFile followLast path = host.openFile true path := by
  cases followLast with
  | true => rfl
  | false =>
    cases h : host.kindOf path with
    | error cause => rw [hhost.openFile_of_error h, hhost.openFile_of_error h]
    | ok kind => exact hhost.openFile_of_other h fun hlink => hkind (by rw [h, hlink])

/-- A path that ends in a link is passed over as a link, if links are not to be followed. -/
theorem ofPath_of_symlink {settings : Settings} (hname : Path.fileName? path = some name)
    (hfollow : settings.followSymlinks = false) (hkind : host.kindOf path = .ok .symlink) :
    Resolved.ofPath host settings path = .error (.notRegular .symlink) := by
  rw [Resolved.ofPath, Resolved.ofPathAcross, hname]
  dsimp only
  rw [Resolved.refuseSymlink, hfollow, hkind]
  rfl

/-- **Every other path is opened**, and what is opened decides. -/
theorem ofPath_of_other (hhost : host.IsConsistent) {settings : Settings}
    (hname : Path.fileName? path = some name)
    (hother : settings.followSymlinks = false → host.kindOf path ≠ .ok .symlink) :
    Resolved.ofPath host settings path =
      match host.openFile settings.followSymlinks path with
      | .error cause => .error (.cannotOpen cause)
      | .ok file => Resolved.ofOpened host path name file := by
  rw [Resolved.ofPath, Resolved.ofPathAcross, hname]
  dsimp only
  rw [Resolved.refuseSymlink]
  cases hfollow : settings.followSymlinks with
  | true => rfl
  | false =>
    cases hkind : host.kindOf path with
    | error cause =>
      rw [hhost.openFile_of_error hkind]
      rfl
    | ok kind =>
      cases kind with
      | symlink => exact absurd hkind (hother hfollow)
      | _ => rfl

/-- **Which inputs are accepted.** -/
theorem ofPath_eq_ok_iff (hhost : host.IsConsistent) {settings : Settings} {input : Resolved ς} :
    Resolved.ofPath host settings path = .ok input ↔
      Path.fileName? path = some input.name ∧ host.Offers settings.followSymlinks path input := by
  cases hname : Path.fileName? path with
  | none =>
    rw [Resolved.ofPath, Resolved.ofPathAcross_of_none hname]
    exact ⟨nofun, fun h => nomatch h.1⟩
  | some name =>
    by_cases hlink : settings.followSymlinks = false ∧ host.kindOf path = .ok .symlink
    · rw [ofPath_of_symlink hname hlink.1 hlink.2]
      obtain ⟨cause, hopen⟩ := hhost.openFile_of_symlink hlink.2
      refine ⟨nofun, fun h => ?_⟩
      have hopened := h.2.openFile
      rw [hlink.1, hopen] at hopened
      cases hopened
    · rw [hhost.ofPath_of_other hname fun hfollow hkind => hlink ⟨hfollow, hkind⟩]
      cases hopen : host.openFile settings.followSymlinks path with
      | error cause =>
        refine ⟨nofun, fun h => ?_⟩
        have hopened := h.2.openFile
        rw [hopen] at hopened
        cases hopened
      | ok file =>
        dsimp only
        rw [Resolved.ofOpened_eq_ok_iff hopen, Option.some.injEq, eq_comm]

/-- **Why the others are not**, unless they have no name or end in a link that is not to be
followed. -/
theorem ofPath_eq_error_iff (hhost : host.IsConsistent) {settings : Settings} {reason : SkipReason}
    (hname : Path.fileName? path = some name)
    (hother : settings.followSymlinks = false → host.kindOf path ≠ .ok .symlink) :
    Resolved.ofPath host settings path = .error reason ↔
      host.Refuses settings.followSymlinks path reason := by
  rw [hhost.ofPath_of_other hname hother]
  cases hopen : host.openFile settings.followSymlinks path with
  | error cause =>
    constructor
    · intro h
      cases h
      exact .cannotOpen hopen
    · intro h
      cases h with
      | cannotOpen hopen' => rw [← Except.error.inj (hopen.symm.trans hopen')]
      | cannotStat hopen' =>
        rw [hopen] at hopen'
        cases hopen'
      | notRegular hopen' =>
        rw [hopen] at hopen'
        cases hopen'
  | ok file => exact Resolved.ofOpened_eq_error_iff hopen

theorem ofPath_eq_noFileName_iff (hhost : host.IsConsistent) {settings : Settings} :
    Resolved.ofPath host settings path = .error .noFileName ↔ Path.fileName? path = none := by
  refine ⟨fun h => ?_, fun hname => Resolved.ofPathAcross_of_none hname host host settings⟩
  cases hname : Path.fileName? path with
  | none => rfl
  | some name =>
    by_cases hlink : settings.followSymlinks = false ∧ host.kindOf path = .ok .symlink
    · rw [ofPath_of_symlink hname hlink.1 hlink.2] at h
      cases h
    · have hother : settings.followSymlinks = false → host.kindOf path ≠ .ok .symlink :=
        fun hfollow hkind => hlink ⟨hfollow, hkind⟩
      cases (hhost.ofPath_eq_error_iff hname hother).1 h

/-- **Links make no difference where there are none**: the settings do not matter. -/
theorem ofPath_eq_ofPath (hhost : host.IsConsistent) (hkind : host.kindOf path ≠ .ok .symlink)
    (settings other : Settings) :
    Resolved.ofPath host settings path = Resolved.ofPath host other path := by
  cases hname : Path.fileName? path with
  | none =>
    rw [Resolved.ofPath, Resolved.ofPath, Resolved.ofPathAcross_of_none hname,
      Resolved.ofPathAcross_of_none hname]
  | some name =>
    rw [hhost.ofPath_of_other hname fun _ => hkind, hhost.ofPath_of_other hname fun _ => hkind,
      hhost.openFile_eq hkind, hhost.openFile_eq hkind other.followSymlinks]

/-- **A link that takes the place of a file is not followed either.** -/
theorem ofPathAcross_ne_ok (hhost : host.IsConsistent) {settings : Settings}
    (hfollow : settings.followSymlinks = false) (hkind : host.kindOf path = .ok .symlink)
    (before : Lookup ς) (input : Resolved ς) :
    Resolved.ofPathAcross before host settings path ≠ .ok input := by
  intro h
  obtain ⟨cause, hopen⟩ := hhost.openFile_of_symlink hkind
  rw [Resolved.ofPathAcross, hfollow, hopen] at h
  cases hname : Path.fileName? path with
  | none =>
    rw [hname] at h
    cases h
  | some name =>
    rw [hname] at h
    cases hlook : Resolved.refuseSymlink before settings path with
    | error reason =>
      rw [hlook] at h
      cases h
    | ok =>
      rw [hlook] at h
      cases h

end Lookup.IsConsistent

/-- **The skip policy**, on a host that does not change while it is asked.  A path without a name is
passed over for that, whatever the host would answer.  An input is accepted exactly if its path has
a name and the host offers a regular file for it; it keeps the path and the status of the opened
file.  If links are not followed, a path that ends in one is passed over as a link; every other path
with a name that is not accepted is passed over because the file cannot be opened or has no status,
or because what was opened is something else.  Links make no difference to any other path, and if a
link takes the place of a file before that is opened, the path is not accepted either. -/
theorem skip_policy (hhost : host.IsConsistent) (settings : Settings) (path : Bytes) :
    (∀ name, Path.fileName? path = some name ↔
        ∃ directory, path = directory ++ name ∧ name ≠ [] ∧ slash ∉ name ∧
          (directory = [] ∨ directory.getLast? = some slash)) ∧
      (Resolved.ofPath host settings path = .error .noFileName ↔ Path.fileName? path = none) ∧
      (Path.fileName? path = none → ∀ before after : Lookup ς,
        Resolved.ofPathAcross before after settings path = .error .noFileName) ∧
      (∀ input, Resolved.ofPath host settings path = .ok input ↔
        Path.fileName? path = some input.name ∧
          host.Offers settings.followSymlinks path input) ∧
      (∀ name, Path.fileName? path = some name →
        (settings.followSymlinks = false → host.kindOf path = .ok .symlink →
          Resolved.ofPath host settings path = .error (.notRegular .symlink)) ∧
        ((settings.followSymlinks = false → host.kindOf path ≠ .ok .symlink) →
          ∀ reason, Resolved.ofPath host settings path = .error reason ↔
            host.Refuses settings.followSymlinks path reason)) ∧
      (host.kindOf path ≠ .ok .symlink → ∀ other : Settings,
        Resolved.ofPath host other path = Resolved.ofPath host settings path) ∧
      (settings.followSymlinks = false → host.kindOf path = .ok .symlink →
        ∀ (before : Lookup ς) (input : Resolved ς),
          Resolved.ofPathAcross before host settings path ≠ .ok input) :=
  ⟨fun _ => Path.fileName?_eq_some_iff, hhost.ofPath_eq_noFileName_iff,
    fun hname before after => Resolved.ofPathAcross_of_none hname before after settings,
    fun _ => hhost.ofPath_eq_ok_iff,
    fun _ hname => ⟨Lookup.IsConsistent.ofPath_of_symlink hname,
      fun hother _ => hhost.ofPath_eq_error_iff hname hother⟩,
    fun hkind other => hhost.ofPath_eq_ofPath hkind other settings, hhost.ofPathAcross_ne_ok⟩

/-- A link to a regular file: it is accepted under its own name if links are followed, and passed
over if they are not, also if it was a file when it was looked at. -/
theorem skip_policy_link :
    let file : Inode := ⟨.file .empty, 0o644⟩
    let before : FileSystem := ⟨#[⟨.directory [([108], 1)], 0o755⟩, file], []⟩
    let now : FileSystem :=
      ⟨#[⟨.directory [([108], 1), ([102], 2)], 0o755⟩, ⟨.symlink [102], 0o777⟩, file], []⟩
    (∃ input, Resolved.ofPath now.lookup {} [108] = .ok input ∧ input.name = [108]) ∧
      Resolved.ofPath now.lookup { followSymlinks := false } [108] =
        .error (.notRegular .symlink) ∧
      ∀ input, Resolved.ofPathAcross before.lookup now.lookup { followSymlinks := false } [108] ≠
        .ok input := by
  intro file before now
  have hkind : now.lookup.kindOf [108] = .ok .symlink := by cbv
  have hname : Path.fileName? [108] = some [108] := by decide
  obtain ⟨-, -, -, -, hrefused, -, hrace⟩ :=
    skip_policy now.isConsistent_lookup { followSymlinks := false } [108]
  obtain ⟨-, -, -, haccepted, -⟩ := skip_policy now.isConsistent_lookup {} [108]
  have hopen : now.lookup.openFile true [108] = .ok ⟨2, 0⟩ := by cbv
  obtain ⟨status, hstat, hregular⟩ :
      ∃ status, now.lookup.statusOf ⟨2, 0⟩ = .ok status ∧ status.kind = .regular :=
    ⟨_, rfl, by decide⟩
  have hinput := (haccepted ⟨[108], [108], status, ⟨2, 0⟩⟩).2
    ⟨hname, rfl, hopen, hstat, hregular⟩
  exact ⟨⟨_, hinput, rfl⟩, (hrefused _ hname).1 rfl hkind, hrace rfl hkind before.lookup⟩

end Policy

end CpioArchive
