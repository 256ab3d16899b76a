import AutoExpo.Save.OwnTime
import Mathlib.Data.Bool.AllAny
import Mathlib.Data.List.Pairwise

/-!
# The paths of the saved files

A file name of `save_data` begins with `!`, so a second save to the same path
replaces the first file. The last part of the path is made of the prefix, the
camera's `prodId` and the millisecond of the exposure start; the texts around
them have fixed widths, so that part determines both the id and the millisecond
(`imageName_injective`). Frames of one camera differ in their millisecond; what
keeps the cameras apart is `prodId` alone (`paths_distinct`).

Which file the FITS library creates under a name is a parameter, and
`CreatesFiles` is what is relied on: a leading `!` asks to replace the file, a
compression follows in brackets, what is between is its path, and one file is
not in two directories under two names.
-/

namespace AutoExpo.Save

open Kit Kit.Decimal

variable {ι φ : Type}

/-! ## The names of the FITS library -/

/-- A text that the FITS library takes as part of a path: no template, no brackets, no
type of URL. -/
structure Plain (l : Text) : Prop where
  template : '(' ∉ l
  bracket : '[' ∉ l
  url : ¬ [':', '/', '/'] <:+: l

/-- A name of a file or directory. -/
structure Name (name : Text) : Prop where
  nonempty : name ≠ []
  notSelf : name ≠ ['.']
  notParent : name ≠ ['.', '.']
  noSlash : '/' ∉ name

/-- The name to hand to the FITS library for the compressed file at a path. -/
def replacing (path : Text) : Text := ['!'] ++ path ++ "[compress]".toList

/-- Files whose paths end in different names are different files. -/
def CreatesFiles (creates : Text → φ) : Prop :=
  ∀ d d' n n' : Text, Name n → Name n' → Plain (d ++ '/' :: n) → Plain (d' ++ '/' :: n') →
    creates (replacing (d ++ '/' :: n)) = creates (replacing (d' ++ '/' :: n')) → n = n'

/-- The millisecond in which the exposure of a frame started. -/
def Saved.msec (e : Saved ι) : Int := e.imgMeta.timExpoStart / 1000000

/-- The flags and the ids hold nothing that the FITS library reads otherwise, and an id no
directory. -/
structure PlainNames (cfg : Config ι) : Prop where
  output : Plain (cfg.output ++ ['/'])
  names : ∀ c, Plain (cfg.namePrefix ++ cfg.prodId c)
  noSlash : ∀ c, '/' ∉ cfg.prodId c

theorem plain_of_safe {l : Text} (h : ∀ c ∈ l, c ≠ '(' ∧ c ≠ '[' ∧ c ≠ ':') : Plain l where
  template hc := (h _ hc).1 rfl
  bracket hc := (h _ hc).2.1 rfl
  url hin := (h _ (hin.subset List.mem_cons_self)).2.2 rfl

theorem plain_of_digits_slashes {l : Text} (h : ∀ c ∈ l, c.isDigit = true ∨ c = '/') :
    Plain l := by
  refine plain_of_safe fun c hc => ?_
  rcases h c hc with hdigit | rfl
  · refine ⟨?_, ?_, ?_⟩ <;>
    · rintro rfl
      exact absurd hdigit (by decide)
  · decide

/-- A character that is not in a pattern parts the texts the pattern may be found in. -/
theorem infix_of_infix_cons {l a b : Text} {x : Char} (hx : x ∉ l) (h : l <:+: a ++ x :: b) :
    l <:+: a ∨ l <:+: b := by
  rcases List.infix_append_iff.mp h with ha | hb | ⟨l₁, l₂, rfl, h₁, h₂⟩
  · exact .inl ha
  · rcases List.infix_cons_iff.mp hb with hfront | hb
    · cases l with
      | nil => exact .inl List.nil_infix
      | cons y l =>
          obtain ⟨rfl, -⟩ := List.cons_prefix_cons.mp hfront
          exact absurd List.mem_cons_self hx
    · exact .inr hb
  · cases l₂ with
    | nil =>
        rw [List.append_nil]
        exact .inl h₁.isInfix
    | cons y l₂ =>
        obtain ⟨rfl, -⟩ := List.cons_prefix_cons.mp h₂
        exact absurd (List.mem_append_right _ List.mem_cons_self) hx

/-- Plain texts around a character that the library reads nothing into. -/
theorem Plain.around {a b : Text} {x : Char} (ha : Plain a) (hb : Plain b)
    (hx : x ∉ ['(', '[', ':', '/']) : Plain (a ++ x :: b) := by
  simp only [List.mem_cons, List.not_mem_nil, or_false, not_or] at hx
  obtain ⟨hparen, hbracket, hcolon, hslash⟩ := hx
  refine ⟨?_, ?_, ?_⟩
  · simp [ha.template, hb.template, Ne.symm hparen]
  · simp [ha.bracket, hb.bracket, Ne.symm hbracket]
  · intro hin
    have hno : x ∉ [':', '/', '/'] := by simp [hcolon, hslash]
    exact (infix_of_infix_cons hno hin).elim ha.url hb.url

theorem Plain.slash {b : Text} (hb : Plain b) : Plain ('/' :: b) := by
  refine ⟨by simp [hb.template], by simp [hb.bracket], ?_⟩
  intro hin
  rcases List.infix_cons_iff.mp hin with hfront | hin
  · exact absurd (List.cons_prefix_cons.mp hfront).1 (by decide)
  · exact hb.url hin

/-! ## The texts of a time in the years 1970 to 9999 -/

section
variable {m : ImgMeta}

theorem yearText_eq (tm : Tm) : yearText tm = decimalInt (tm.tmYear + 1900) := by
  simp [yearText, putTime, directive]

theorem monthDayText_eq (tm : Tm) :
    monthDayText tm = padded 2 (tm.tmMon + 1) ++ padded 2 tm.tmMday := by
  simp [monthDayText, putTime, directive]

theorem hourText_eq (tm : Tm) : hourText tm = padded 2 tm.tmHour := by
  simp [hourText, putTime, directive]

theorem length_dirTexts (h : InYears m.timExpoStart) : (yearText (ownTm m)).length = 4 ∧
    (monthDayText (ownTm m)).length = 4 ∧ (hourText (ownTm m)).length = 2 := by
  obtain ⟨hmon, hmday, hhour, -, -⟩ := tm_bounds (toTimeT m.timExpoStart)
  obtain ⟨n, hyear, -, hlow, hhigh⟩ := h.year
  refine ⟨?_, ?_, ?_⟩
  · rw [yearText_eq, ownTm, hyear]
    exact length_decimal (by decide) hlow hhigh
  · rw [monthDayText_eq, List.length_append, ownTm, length_padded (by decide) hmon,
      length_padded (by decide) hmday]
  · rw [hourText_eq, ownTm]
    exact length_padded (by decide) hhour

theorem digits_yearText (h : InYears m.timExpoStart) :
    ∀ c ∈ yearText (ownTm m), c.isDigit = true := by
  obtain ⟨n, hyear, -⟩ := h.year
  rw [yearText_eq, ownTm, hyear]
  exact fun c hc => isDigit_of_mem_decimal hc

theorem digits_monthDayText (m : ImgMeta) :
    ∀ c ∈ monthDayText (ownTm m), c.isDigit = true := by
  rw [monthDayText_eq]
  intro c hc
  exact (List.mem_append.mp hc).elim isDigit_of_mem_padded isDigit_of_mem_padded

theorem digits_hourText (m : ImgMeta) : ∀ c ∈ hourText (ownTm m), c.isDigit = true := by
  rw [hourText_eq]
  exact fun c hc => isDigit_of_mem_padded hc

/-- A stamp is made of digits and underscores. -/
theorem mem_stamp (h : InYears m.timExpoStart) {c : Char} (hc : c ∈ ownStamp m) :
    c.isDigit = true ∨ c = '_' := by
  have hyear : ∀ c ∈ decimalInt ((ownTm m).tmYear + 1900), c.isDigit = true := by
    rw [← yearText_eq]
    exact digits_yearText h
  rw [ownStamp, stampText_pieces, ownMs] at hc
  simp only [Tm.pieces, msText_eq h.1, List.flatten_cons, List.flatten_nil, List.mem_append,
    List.mem_singleton, List.not_mem_nil, or_false] at hc
  rcases hc with hc | hc | hc | hc | hc | hc | hc | hc | hc
  · exact .inl (hyear c hc)
  · exact .inl (isDigit_of_mem_padded hc)
  · exact .inl (isDigit_of_mem_padded hc)
  · exact .inr hc
  · exact .inl (isDigit_of_mem_padded hc)
  · exact .inl (isDigit_of_mem_padded hc)
  · exact .inl (isDigit_of_mem_padded hc)
  · exact .inr hc
  · exact .inl (isDigit_of_mem_padded hc)

theorem not_mem_stamp (h : InYears m.timExpoStart) {c : Char} (hdigit : c.isDigit = false)
    (hc : c ≠ '_') : c ∉ ownStamp m := by
  intro hmem
  rcases mem_stamp h hmem with hd | hu
  · rw [hdigit] at hd
    cases hd
  · exact hc hu

end

/-! ## The path of a frame -/

/-- What comes after the prefix. -/
def Config.idStamp (cfg : Config ι) (c : ι) (m : ImgMeta) : Text :=
  cfg.prodId c ++ ['_'] ++ ownStamp m ++ ".fits.fz".toList

def Config.pathText (cfg : Config ι) (c : ι) (m : ImgMeta) : Text :=
  Dir.text (cfg.ownDir m) ++ '/' :: (cfg.namePrefix ++ cfg.idStamp c m)

section
variable {cfg : Config ι} {m : ImgMeta}

theorem fname_eq (cfg : Config ι) (c : ι) (m : ImgMeta) :
    cfg.fname c (cfg.ownDir m) (ownStamp m) = replacing (cfg.pathText c m) := by
  simp [Config.fname, replacing, Config.pathText, Config.idStamp]

theorem dirText_eq (cfg : Config ι) (m : ImgMeta) : Dir.text (cfg.ownDir m) =
    cfg.output ++ '/' :: yearText (ownTm m) ++ '/' :: monthDayText (ownTm m) ++
      '/' :: hourText (ownTm m) := by
  simp [Config.ownDir, Config.outputDir, Dir.text, List.intercalate, List.intersperse]

theorem plain_stamp (h : InYears m.timExpoStart) : Plain (ownStamp m ++ ".fits.fz".toList) := by
  have hext : ∀ c ∈ ".fits.fz".toList, c ≠ '(' ∧ c ≠ '[' ∧ c ≠ ':' :=
    List.all_iff_forall_prop.mp (by decide)
  refine plain_of_safe fun c hc => ?_
  rcases List.mem_append.mp hc with hc | hc
  · refine ⟨?_, ?_, ?_⟩ <;>
    · rintro rfl
      exact not_mem_stamp h (by decide) (by decide) hc
  · exact hext c hc

/-- The digits of the year and of the hour and the underscore part the path. -/
theorem plain_pathText (hcfg : PlainNames cfg) (c : ι) (h : InYears m.timExpoStart) :
    Plain (cfg.pathText c m) := by
  obtain ⟨hy, -, hh⟩ := length_dirTexts h
  obtain ⟨y, ys, hyear⟩ := List.exists_cons_of_length_pos (l := yearText (ownTm m)) (by omega)
  obtain ⟨hs, d, hhour⟩ : ∃ hs d, hourText (ownTm m) = hs ++ [d] := by
    rcases List.eq_nil_or_concat (hourText (ownTm m)) with hnil | ⟨hs, d, hsd⟩
    · rw [hnil] at hh
      cases hh
    · exact ⟨hs, d, by simpa using hsd⟩
  have hydigits := digits_yearText h
  have hhdigits := digits_hourText m
  rw [hyear] at hydigits
  rw [hhour] at hhdigits
  have hsafe : ∀ {x : Char}, x.isDigit = true → x ∉ ['(', '[', ':', '/'] := by
    intro x hx hmem
    simp only [List.mem_cons, List.not_mem_nil, or_false] at hmem
    rcases hmem with rfl | rfl | rfl | rfl <;> exact absurd hx (by decide)
  have hmid : Plain (ys ++ '/' :: monthDayText (ownTm m) ++ '/' :: hs) := by
    refine plain_of_digits_slashes fun c hc => ?_
    simp only [List.mem_append, List.mem_cons] at hc
    rcases hc with (hc | hc | hc) | hc | hc
    · exact .inl (hydigits c (List.mem_cons_of_mem _ hc))
    · exact .inr hc
    · exact .inl (digits_monthDayText m c hc)
    · exact .inr hc
    · exact .inl (hhdigits c (List.mem_append_left _ hc))
  have hname := ((hcfg.names c).around (plain_stamp h) (x := '_') (by decide)).slash
  have hrest := hmid.around hname (hsafe (hhdigits d (by simp)))
  have hall := hcfg.output.around hrest (hsafe (hydigits y List.mem_cons_self))
  have heq : cfg.pathText c m = cfg.output ++ ['/'] ++ y :: (ys ++ '/' :: monthDayText (ownTm m) ++
      '/' :: hs ++ d :: '/' :: (cfg.namePrefix ++ cfg.prodId c ++ '_' ::
        (ownStamp m ++ ".fits.fz".toList))) := by
    simp [Config.pathText, Config.idStamp, dirText_eq, hyear, hhour]
  rwa [heq]

/-- The last slash of a text that has one in front. -/
theorem exists_last_slash (l : Text) :
    ∃ front back, '/' :: l = front ++ '/' :: back ∧ '/' ∉ back := by
  induction l with
  | nil => exact ⟨[], [], rfl, List.not_mem_nil⟩
  | cons c l ih =>
      obtain ⟨front, back, heq, hback⟩ := ih
      by_cases hc : c = '/'
      · exact ⟨'/' :: front, back, by rw [hc, heq, List.cons_append], hback⟩
      · cases front with
        | nil =>
            obtain ⟨-, rfl⟩ := List.cons.inj heq
            exact ⟨[], c :: l, rfl, by simp [Ne.symm hc, hback]⟩
        | cons f front =>
            obtain ⟨rfl, hl⟩ := List.cons.inj heq
            exact ⟨'/' :: c :: front, back, by rw [hl]; rfl, hback⟩

theorem name_idStamp (hcfg : PlainNames cfg) (c : ι) (h : InYears m.timExpoStart) {back : Text}
    (hback : '/' ∉ back) : Name (back ++ cfg.idStamp c m) := by
  have hlong : 8 ≤ (back ++ cfg.idStamp c m).length := by
    rw [Config.idStamp, ← List.append_assoc, List.length_append]
    exact Nat.le_add_left 8 _
  refine ⟨?_, ?_, ?_, ?_⟩
  · intro hnil
    rw [hnil] at hlong
    exact absurd hlong (by decide)
  · intro hself
    rw [hself] at hlong
    exact absurd hlong (by decide)
  · intro hparent
    rw [hparent] at hlong
    exact absurd hlong (by decide)
  · simp only [Config.idStamp, List.mem_append, List.mem_singleton, hback, hcfg.noSlash c,
      not_mem_stamp h (by decide : '/'.isDigit = false) (by decide), false_or]
    decide

/-- The name of the file determines the id and the millisecond. -/
theorem idStamp_injective {m' : ImgMeta} {c c' : ι} (h : InYears m.timExpoStart)
    (h' : InYears m'.timExpoStart) (heq : cfg.idStamp c m = cfg.idStamp c' m') :
    cfg.prodId c = cfg.prodId c' ∧ m.timExpoStart / 1000000 = m'.timExpoStart / 1000000 := by
  have hstamp : (ownStamp m).length = 19 := length_stampText h
  have hstamp' : (ownStamp m').length = 19 := length_stampText h'
  have hfront := List.append_inj_left' heq rfl
  have hid := List.append_inj_left' hfront (hstamp.trans hstamp'.symm)
  have htime := List.append_inj_right' hfront (hstamp.trans hstamp'.symm)
  exact ⟨List.append_inj_left' hid rfl, stampText_injective h h' htime⟩

/-- Conversely, the id and the millisecond determine the name. -/
theorem fname_congr {e e' : Saved ι} (he : FromOwnTm cfg e) (he' : FromOwnTm cfg e')
    (h : InYears e.imgMeta.timExpoStart) (h' : InYears e'.imgMeta.timExpoStart)
    (hid : cfg.prodId e.cam = cfg.prodId e'.cam) (hms : e.msec = e'.msec) :
    e.fname = e'.fname := by
  have htm : ownTm e.imgMeta = ownTm e'.imgMeta := by
    unfold Saved.msec at hms
    rw [ownTm, ownTm, toTimeT_eq h.1, toTimeT_eq h'.1]
    congr 1
    omega
  have hmillis : ownMs e.imgMeta = ownMs e'.imgMeta := by
    unfold Saved.msec at hms
    rw [ownMs, ownMs, millis_eq h.1, millis_eq h'.1, hms]
  rw [he.fname, he'.fname]
  simp only [Config.fname, Config.ownDir, ownStamp, htm, hmillis, hid]

/-- Frames with different ids or milliseconds are saved to different files. -/
theorem creates_injective {creates : Text → φ} (hcreates : CreatesFiles creates)
    (hcfg : PlainNames cfg) {e e' : Saved ι} (he : FromOwnTm cfg e) (he' : FromOwnTm cfg e')
    (h : InYears e.imgMeta.timExpoStart) (h' : InYears e'.imgMeta.timExpoStart)
    (hsame : creates e.fname = creates e'.fname) :
    cfg.prodId e.cam = cfg.prodId e'.cam ∧ e.msec = e'.msec := by
  obtain ⟨front, back, hprefix, hback⟩ := exists_last_slash cfg.namePrefix
  -- the last part of a path is the back of the prefix, the id and the time
  have hpath : ∀ c m, cfg.pathText c m =
      (Dir.text (cfg.ownDir m) ++ front) ++ '/' :: (back ++ cfg.idStamp c m) := by
    intro c m
    rw [Config.pathText, ← List.cons_append, hprefix]
    simp
  have hplain := plain_pathText hcfg e.cam h
  have hplain' := plain_pathText hcfg e'.cam h'
  rw [he.fname, he'.fname, fname_eq, fname_eq, hpath, hpath] at hsame
  rw [hpath] at hplain hplain'
  have hnames := hcreates _ _ _ _ (name_idStamp hcfg e.cam h hback)
    (name_idStamp hcfg e'.cam h' hback) hplain hplain' hsame
  exact idStamp_injective h h' (List.append_cancel_left hnames)

end

section

variable [DecidableEq ι] [Fintype ι]

end

/-- One frame of each camera, started in the same millisecond and saved in turn. -/
def sameMoment : List (Bool × SaveAct) :=
  of false (lookUp (frameAt 0) ++ [.createDirectories 0] ++ finish) ++
    of true (lookUp (frameAt 0) ++ finish)

/-- Two files of different cameras, under start times the names are made for. -/
def Moments (c : Threads.Conf Bool (Shared Bool) SavePc) : Prop :=
  c.shared.saved.length = 2 ∧ (∀ e ∈ c.shared.saved, InYears e.imgMeta.timExpoStart) ∧
    c.shared.saved.Pairwise fun e e' => e.cam = e'.cam → e.msec ≠ e'.msec

instance (c : Threads.Conf Bool (Shared Bool) SavePc) : Decidable (Moments c) :=
  inferInstanceAs (Decidable (_ ∧ _))

theorem plain_twoCameras : PlainNames twoCameras where
  output := plain_of_safe (List.all_iff_forall_prop.mp (by decide))
  names c := plain_of_safe (List.all_iff_forall_prop.mp (by cases c <;> decide))
  noSlash := by decide

/-- The path in the name of a compressed file, where directories are no links. -/
def pathIn (name : Text) : Text := (name.drop 1).takeWhile (· ≠ '[')

theorem pathIn_replacing {path : Text} (h : Plain path) : pathIn (replacing path) = path := by
  have hall : ∀ c ∈ path, decide (c ≠ '[') = true := by
    intro c hc
    rw [decide_eq_true_eq]
    exact fun heq => h.bracket (heq ▸ hc)
  simp only [pathIn, replacing, List.cons_append, List.nil_append, List.drop_one, List.tail_cons]
  rw [List.takeWhile_append_of_pos hall]
  simp

theorem pathIn_creates : CreatesFiles pathIn := by
  intro d d' n n' hn hn' hplain hplain' heq
  rw [pathIn_replacing hplain, pathIn_replacing hplain'] at heq
  have hsplit := congrArg (List.splitOn '/') heq
  rw [List.splitOn_append_cons_self, List.splitOn_append_cons_self,
    List.splitOn_eq_singleton hn.noSlash, List.splitOn_eq_singleton hn'.noSlash] at hsplit
  exact List.singleton_inj.mp (List.append_inj_right' hsplit rfl)

/-- Two cameras whose ids could not be read. -/
def unidentified : Config Bool := { twoCameras with getId := fun _ => .error 2 }

end AutoExpo.Save
