import AutoExpo.HandOver.Dispatch
import AutoExpo.Save.Paths

/-!
# From the saved file to its destination

The names of `save_data` as `file_dispatch` sees them: the path, in its parts, is
the output directory, the year, the day, the hour and the image, and the pattern
of the handler takes it. So every image goes to the same four parts below a
candidate, and images that have different paths have different destinations
(`destinations_apart`), whatever was selected when they were moved.

The path under which the FITS library creates a file is a parameter, and
`DiskPaths` what is relied on.
-/

namespace AutoExpo.HandOver

open Kit Kit.Decimal
open Save (FromOwnTm Saved Plain PlainNames Name InYears ownTm ownStamp replacing)

variable {ι : Type}

/-! ## Paths in their parts -/

/-- One part further; the parent of the root is the root. -/
def Path.enter (p : Path) (name : Text) : Path :=
  if name = [] ∨ name = ['.'] then p
  else if name = ['.', '.'] then (if p.length ≤ 1 then p else p.dropLast)
  else p ++ [String.ofList name]

/-- `Path(path).resolve().parts`, there being no links. -/
def resolve (cwd : Path) (path : Text) : Path :=
  (path.splitOn '/').foldl Path.enter (if path.head? = some '/' then ["/"] else cwd)

theorem enter_name (p : Path) {name : Text} (hname : Name name) :
    p.enter name = p ++ [String.ofList name] := by
  rw [Path.enter, if_neg (not_or.mpr ⟨hname.nonempty, hname.notSelf⟩), if_neg hname.notParent]

/-- A name below a path. -/
theorem resolve_slash (cwd : Path) {path name : Text} (hpath : path ≠ []) (hname : Name name) :
    resolve cwd (path ++ '/' :: name) = resolve cwd path ++ [String.ofList name] := by
  have hsplit : (path ++ '/' :: name).splitOn '/' = path.splitOn '/' ++ [name] := by
    rw [List.splitOn_append_cons_self, List.splitOn_eq_singleton hname.noSlash]
  have hhead : (path ++ '/' :: name).head? = path.head? := by
    cases path with
    | nil => exact absurd rfl hpath
    | cons c rest => rfl
  rw [resolve, hsplit, hhead, List.foldl_append, List.foldl_cons, List.foldl_nil,
    enter_name _ hname, resolve]

theorem name_of_digits {l : Text} (hne : l ≠ []) (hdigits : ∀ c ∈ l, c.isDigit = true) :
    Name l where
  nonempty := hne
  notSelf := by
    rintro rfl
    exact absurd (hdigits '.' List.mem_cons_self) (by decide)
  notParent := by
    rintro rfl
    exact absurd (hdigits '.' List.mem_cons_self) (by decide)
  noSlash hslash := absurd (hdigits '/' hslash) (by decide)

/-! ## The parts of an image's path -/

/-- The prefix names no directory, and the output directory is taken as it is written. -/
structure FlatNames (cfg : Save.Config ι) : Prop where
  output : ∃ c rest, cfg.output = c :: rest ∧ c ≠ ' ' ∧ c ≠ '~'
  namePrefix : '/' ∉ cfg.namePrefix

/-- The file is created at the path in the name, but for the blanks in front, which are left
out, and for `~`. -/
def DiskPaths (disk : Text → Text) : Prop :=
  ∀ c path, Plain (c :: path) → c ≠ ' ' → c ≠ '~' → disk (replacing (c :: path)) = c :: path

def imageName (cfg : Save.Config ι) (c : ι) (m : ImgMeta) : Text :=
  cfg.namePrefix ++ cfg.idStamp c m

/-- The parts below the output directory. -/
def imageParts (cfg : Save.Config ι) (c : ι) (m : ImgMeta) : List Text :=
  [Save.yearText (ownTm m), Save.monthDayText (ownTm m), Save.hourText (ownTm m),
    imageName cfg c m]

variable {cfg : Save.Config ι} {disk : Text → Text} {m : ImgMeta}

/-- The path of a file under its own time. -/
theorem path_eq (hdisk : DiskPaths disk) (hplain : PlainNames cfg) (hcfg : FlatNames cfg)
    {e : Saved ι} (he : FromOwnTm cfg e) (h : InYears e.imgMeta.timExpoStart) :
    disk e.fname = cfg.output ++ '/' :: Save.yearText (ownTm e.imgMeta) ++
      '/' :: Save.monthDayText (ownTm e.imgMeta) ++ '/' :: Save.hourText (ownTm e.imgMeta) ++
      '/' :: imageName cfg e.cam e.imgMeta := by
  obtain ⟨c, rest, houtput, hblank, hhome⟩ := hcfg.output
  have hpath : cfg.pathText e.cam e.imgMeta = cfg.output ++
      '/' :: Save.yearText (ownTm e.imgMeta) ++ '/' :: Save.monthDayText (ownTm e.imgMeta) ++
      '/' :: Save.hourText (ownTm e.imgMeta) ++ '/' :: imageName cfg e.cam e.imgMeta := by
    rw [Save.Config.pathText, Save.dirText_eq, imageName]
  have hall := Save.plain_pathText hplain e.cam h
  rw [he.fname, Save.fname_eq, hpath]
  rw [hpath] at hall
  simp only [houtput, List.cons_append] at hall ⊢
  exact hdisk c _ hall hblank hhome

/-- It is four parts below the output directory. -/
theorem resolve_path (hdisk : DiskPaths disk) (hplain : PlainNames cfg) (hcfg : FlatNames cfg)
    (cwd : Path) {e : Saved ι} (he : FromOwnTm cfg e) (h : InYears e.imgMeta.timExpoStart) :
    resolve cwd (disk e.fname) =
      resolve cwd cfg.output ++ (imageParts cfg e.cam e.imgMeta).map String.ofList := by
  obtain ⟨hy, hmd, hh⟩ := Save.length_dirTexts h
  have hyear : Name (Save.yearText (ownTm e.imgMeta)) :=
    name_of_digits (List.ne_nil_of_length_pos (hy ▸ by decide)) (Save.digits_yearText h)
  have hmonthDay : Name (Save.monthDayText (ownTm e.imgMeta)) :=
    name_of_digits (List.ne_nil_of_length_pos (hmd ▸ by decide)) (Save.digits_monthDayText _)
  have hhour : Name (Save.hourText (ownTm e.imgMeta)) :=
    name_of_digits (List.ne_nil_of_length_pos (hh ▸ by decide)) (Save.digits_hourText _)
  have hne : ∀ l l' : Text, l ++ '/' :: l' ≠ [] := by simp
  have himage : Name (imageName cfg e.cam e.imgMeta) :=
    Save.name_idStamp hplain e.cam h hcfg.namePrefix
  have houtput : cfg.output ≠ [] := by
    obtain ⟨c, rest, heq, -⟩ := hcfg.output
    simp [heq]
  rw [path_eq hdisk hplain hcfg he h, resolve_slash cwd (hne _ _) himage,
    resolve_slash cwd (hne _ _) hhour, resolve_slash cwd (hne _ _) hmonthDay,
    resolve_slash cwd houtput hyear]
  simp [imageParts]

/-! ## Destinations -/

/-- The dispatcher that listens to the output directory. `*.fit*` covers both patterns. -/
def dispatcher (cfg : Save.Config ι) (cwd : Path) (candidates : List Path) : Config where
  listenDir := resolve cwd cfg.output
  candidates := candidates
  matching p := p.getLast?.any fun name => ".fit".toList <:+: name.toList

variable {cwd : Path} {candidates : List Path}

theorem relative_path (hdisk : DiskPaths disk) (hplain : PlainNames cfg)
    (hcfg : FlatNames cfg) {e : Saved ι} (he : FromOwnTm cfg e)
    (h : InYears e.imgMeta.timExpoStart) :
    (dispatcher cfg cwd candidates).relative (resolve cwd (disk e.fname)) =
      (imageParts cfg e.cam e.imgMeta).map String.ofList := by
  rw [Config.relative, resolve_path hdisk hplain hcfg cwd he h]
  exact List.drop_left

theorem matching_path (hdisk : DiskPaths disk) (hplain : PlainNames cfg)
    (hcfg : FlatNames cfg) {e : Saved ι} (he : FromOwnTm cfg e)
    (h : InYears e.imgMeta.timExpoStart) :
    (dispatcher cfg cwd candidates).matching (resolve cwd (disk e.fname)) = true := by
  have hlast : (resolve cwd (disk e.fname)).getLast? =
      some (String.ofList (imageName cfg e.cam e.imgMeta)) := by
    rw [resolve_path hdisk hplain hcfg cwd he h]
    simp [imageParts]
  have hfit : ".fit".toList <:+: imageName cfg e.cam e.imgMeta := by
    refine ⟨cfg.namePrefix ++ cfg.prodId e.cam ++ ['_'] ++ ownStamp e.imgMeta, "s.fz".toList, ?_⟩
    rw [imageName, Save.Config.idStamp, List.append_assoc]
    simp
  simp only [dispatcher, hlast, Option.any_some, String.toList_ofList]
  exact decide_eq_true hfit

/-- The destination determines the path, whichever candidates were selected. -/
theorem path_of_destination (hdisk : DiskPaths disk) (hplain : PlainNames cfg)
    (hcfg : FlatNames cfg) {e e' : Saved ι} (he : FromOwnTm cfg e) (he' : FromOwnTm cfg e')
    (h : InYears e.imgMeta.timExpoStart)
    (h' : InYears e'.imgMeta.timExpoStart) {dest : Path}
    (hdest : (dispatcher cfg cwd candidates).Destination (resolve cwd (disk e.fname)) dest)
    (hdest' : (dispatcher cfg cwd candidates).Destination (resolve cwd (disk e'.fname)) dest) :
    disk e.fname = disk e'.fname := by
  obtain ⟨fs, -, heq⟩ := hdest
  obtain ⟨fs', -, heq'⟩ := hdest'
  rw [relative_path hdisk hplain hcfg he h] at heq
  rw [relative_path hdisk hplain hcfg he' h'] at heq'
  -- four parts each, below whatever candidate
  have hparts : (imageParts cfg e.cam e.imgMeta).map String.ofList =
      (imageParts cfg e'.cam e'.imgMeta).map String.ofList :=
    List.append_inj_right' (heq.symm.trans heq') (by simp [imageParts])
  simp only [imageParts, List.map_cons, List.map_nil, List.cons.injEq, String.ofList_inj,
    and_true] at hparts
  obtain ⟨hyear, hmonthDay, hhour, hname⟩ := hparts
  rw [path_eq hdisk hplain hcfg he h, path_eq hdisk hplain hcfg he' h', hyear, hmonthDay, hhour,
    hname]

section
variable [DecidableEq ι] [Fintype ι]

/-- Every image that is saved is one for the dispatcher, and images with different paths
never go to the same destination, whatever is selected when they are moved. -/
theorem destinations_apart (cfg : Save.Config ι) (disk : Text → Text) (hdisk : DiskPaths disk)
    (hplain : PlainNames cfg) (hcfg : FlatNames cfg) (cwd : Path) (candidates : List Path)
    (c : Threads.Conf ι (Save.Shared ι) Save.SavePc)
    (hc : ((Save.saves cfg).sys.restrict fun c a => Save.keepsTm c a = true).Reachable c)
    (hyears : ∀ e ∈ c.shared.saved, InYears e.imgMeta.timExpoStart) :
    (∀ e ∈ c.shared.saved,
      (dispatcher cfg cwd candidates).matching (resolve cwd (disk e.fname)) = true) ∧
    ∀ e ∈ c.shared.saved, ∀ e' ∈ c.shared.saved, disk e.fname ≠ disk e'.fname → ∀ dest,
      (dispatcher cfg cwd candidates).Destination (resolve cwd (disk e.fname)) dest →
        ¬ (dispatcher cfg cwd candidates).Destination (resolve cwd (disk e'.fname)) dest := by
  have hown : ∀ e ∈ c.shared.saved, FromOwnTm cfg e := ((Save.keeps_outline cfg).holds c hc).1
  refine ⟨?_, ?_⟩
  · intro e he
    exact matching_path hdisk hplain hcfg (hown e he) (hyears e he)
  · intro e he e' he' hne dest hdest hdest'
    exact hne (path_of_destination hdisk hplain hcfg (hown e he) (hown e' he') (hyears e he)
      (hyears e' he') hdest hdest')

end

theorem flat_twoCameras : FlatNames Save.twoCameras where
  output := ⟨'/', "tmp/data/".toList, rfl, by decide, by decide⟩
  namePrefix := by decide

theorem pathIn_disk : DiskPaths Save.pathIn := fun _ _ hplain _ _ => Save.pathIn_replacing hplain

/-- Two cameras save frames of the same millisecond, and the dispatcher listens. -/
theorem destinations_apart_twoCameras : ∃ c : Threads.Conf Bool (Save.Shared Bool) Save.SavePc,
    c.shared.saved.length = 2 ∧ ∀ e ∈ c.shared.saved, ∀ e' ∈ c.shared.saved,
      Save.pathIn e.fname ≠ Save.pathIn e'.fname → ∀ dest,
      (dispatcher Save.twoCameras [] [["/", "data1"]]).Destination
        (resolve [] (Save.pathIn e.fname)) dest →
        ¬ (dispatcher Save.twoCameras [] [["/", "data1"]]).Destination
          (resolve [] (Save.pathIn e'.fname)) dest := by
  obtain ⟨c, hc, hshape⟩ := TSys.Reachable.of_exec
    (show ((Save.saves Save.twoCameras).sys.restrict fun c a => Save.keepsTm c a = true).init _ from
      Save.freshConf_init Save.twoCameras)
    (show (((Save.saves Save.twoCameras).sys.restrict fun c a => Save.keepsTm c a = true).exec
      Save.freshConf Save.sameMoment).any (fun c => decide (Save.Moments c)) = true
      by decide +kernel)
  simp only [decide_eq_true_eq] at hshape
  obtain ⟨hlen, hyears, -⟩ := hshape
  exact ⟨c, hlen, (destinations_apart Save.twoCameras Save.pathIn pathIn_disk
    Save.plain_twoCameras flat_twoCameras [] [["/", "data1"]] c hc hyears).2⟩

end AutoExpo.HandOver
