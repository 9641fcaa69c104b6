import Zaxonlite.Client.Backup
import Zaxonlite.Lib.Directory
import Zaxonlite.Lib.Run

/-!
# Backups in a directory

Any number of downloads write into one directory at once. Each has a temporary file of its own, flushes it when the
copy has come out right, and renames it. A download can fail or stop between any two of its effects, and a power loss
brings back names no sync has waited for. Through all of it a destination stands for nothing or for a whole copy.
-/

section

open Directory Run

namespace Zaxonlite

namespace Backup

abbrev Name := List UInt8

/-- The name of a temporary file, for a nonce in hexadecimal. -/
def temporaryName (fileName : Name) (nonce : ℕ) : Name :=
  asciiBytes "." ++ fileName ++ asciiBytes ".zaxon-" ++
    ((Nat.toDigits 16 nonce).map fun c => UInt8.ofNat c.toNat) ++ asciiBytes ".tmp"

def Plain (name : Name) : Prop :=
  ∀ fileName nonce, name ≠ temporaryName fileName nonce

/-! ### A download, frame by frame -/

/-- How far `streamBackupPayload` is. -/
inductive Progress where
  | opening
  | streaming (start : BackupBegin) (d : Download)
  | complete (content : List UInt8)

namespace Progress

def content : Progress → List UInt8
  | .opening => []
  | .streaming _ d => d.file
  | .complete content => content

def bytes (frame : Frame) : Progress → List UInt8
  | .streaming .. => if frame.kind = .backupChunk then frame.body.drop 8 else []
  | _ => []

def read (frame : Frame) : Progress → Except DownloadError Progress
  | .opening =>
    if frame.kind = .rpcResponse then .error .remoteBackupRejected
    else if frame.kind ≠ .backupBegin then .error .invalidFrame
    else
      (BackupBegin.decode frame.body).toOption.elim (.error .invalidFrame) fun start =>
        if start.size = 0 ∨ start.size > maxTransferBytes then .error .invalidBackupSize
        else .ok (.streaming start Download.start)
  | .streaming start d =>
    if frame.kind = .backupEnd then
      if d.received ≠ start.size then .error .unexpectedEndOfStream
      else if Sha256.hash d.hashed ≠ start.sha256 then .error .backupDigestMismatch
      else .ok (.complete d.file)
    else if frame.kind ≠ .backupChunk then .error .invalidFrame
    else (d.take start.size frame.body).bind fun d => .ok (.streaming start d)
  | .complete _ => .error .invalidFrame

def readAll (p : Progress) (frames : List Frame) : Except DownloadError Progress :=
  frames.foldlM (fun p frame => p.read frame) p

def after (frames : List Frame) : Except DownloadError Progress :=
  readAll .opening frames

end Progress

/-! ### Calls -/

inductive Phase where
  /-- The destination was not there. -/
  | checked
  | receiving (progress : Progress)
  | flushed
  | renamed
  | returned (done : Bool)
  | lost

def Phase.live : Phase → Bool
  | .returned _ => false
  | .lost => false
  | _ => true

/-- A call of `backupTo`. -/
structure Call where
  target : Name
  temporary : Name
  /-- The file it has created. -/
  file : Option ℕ
  frames : List Frame
  phase : Phase

inductive Turn (fs : Files Name) (c : Call) : Files Name → Call → Prop
  | creates {fs' : Files Name} (hphase : c.phase = .checked) (h : fs.createExclusive c.temporary = some fs') :
    Turn fs c fs' { c with file := some fs.created, phase := .receiving .opening }
  | reads {file : ℕ} {p p' : Progress} (frame : Frame) (hphase : c.phase = .receiving p) (hfile : c.file = some file)
    (hread : p.read frame = .ok p') :
    Turn fs c (fs.append file (p.bytes frame)) { c with frames := c.frames ++ [frame], phase := .receiving p' }
  | flushes {file : ℕ} {content : List UInt8} (hphase : c.phase = .receiving (.complete content))
    (hfile : c.file = some file) : Turn fs c (fs.syncFile file) { c with phase := .flushed }
  | renames {fs' : Files Name} (hphase : c.phase = .flushed) (h : fs.rename c.temporary c.target = .ok fs') :
    Turn fs c fs' { c with phase := .renamed }
  | syncs (hphase : c.phase = .renamed) : Turn fs c fs.sync { c with phase := .returned true }
  /-- Anything fails once the temporary file is there; the call removes it. -/
  | fails (hfile : c.file ≠ none) (hlive : c.phase.live = true) :
    Turn fs c (fs.deleteFile c.temporary) { c with phase := .returned false }
  /-- The process dies, or there is no temporary file yet. -/
  | stops (hlive : c.phase.live = true) : Turn fs c fs { c with phase := .lost }

/-- The directory and the calls that work on it. -/
structure BackupRun where
  files : Files Name
  calls : ℕ → Option Call

def Call.interrupted (c : Call) : Call :=
  if c.phase.live then { c with phase := .lost } else c

namespace BackupRun

def setCall (r : BackupRun) (files : Files Name) (j : ℕ) (c : Call) : BackupRun where
  files := files
  calls := Function.update r.calls j (some c)

end BackupRun

/-- One step of a run. A nonce is never drawn twice, and nobody asks for a backup under a temporary file's name. -/
inductive Step : BackupRun → BackupRun → Prop
  | begins {r : BackupRun} {j : ℕ} {target : Name} (nonce : ℕ) (hfree : r.calls j = none) (hplain : Plain target)
    (habsent : r.files.current target = none)
    (hfresh : ∀ i c, r.calls i = some c → c.temporary ≠ temporaryName target nonce) :
    Step r (r.setCall r.files j ⟨target, temporaryName target nonce, none, [], .checked⟩)
  | turn {r : BackupRun} {j : ℕ} {c c' : Call} {files : Files Name} (hcall : r.calls j = some c)
    (hturn : Turn r.files c files c') : Step r (r.setCall files j c')
  | powerLoss {r : BackupRun} {files : Files Name} (hloss : Files.PowerLoss r.files files) :
    Step r ⟨files, fun j => (r.calls j).map Call.interrupted⟩

/-- Everything is on the disk. -/
structure Settled (fs : Files Name) : Prop where
  earlier : fs.earlier = []
  flushed : ∀ file, fs.flushed file = fs.data file
  file_lt : ∀ name file, fs.current name = some file → file < fs.created

/-- No call yet. -/
def Started (fs : Files Name) (r : BackupRun) : Prop :=
  r.files = fs ∧ ∀ j, r.calls j = none

/-! ### What a file holds -/

section Frames

variable {frames : List Frame} {frame : Frame} {p p' : Progress}

theorem Progress.after_concat (h : Progress.after frames = .ok p) (hread : p.read frame = .ok p') :
    Progress.after (frames ++ [frame]) = .ok p' := by
  rw [Progress.after, Progress.readAll, List.foldlM_append, ← Progress.readAll, ← Progress.after, h]
  change (p.read frame).bind _ = _
  rw [hread]
  rfl

/-- The file and the digest have seen the same bytes, and as many as were counted. -/
def Progress.Sound : Progress → Prop
  | .streaming _ d => d = .of d.file
  | _ => True

theorem Progress.read_opening (hread : Progress.opening.read frame = .ok p) :
    ∃ start, p = .streaming start Download.start ∧ frame.kind = .backupBegin ∧
      BackupBegin.decode frame.body = .ok start ∧ ¬(start.size = 0 ∨ start.size > maxTransferBytes) := by
  rw [Progress.read] at hread
  split_ifs at hread with hresponse hbegin
  cases hdecode : BackupBegin.decode frame.body with
  | error e =>
    rw [hdecode] at hread
    cases hread
  | ok start =>
    rw [hdecode, Except.toOption, Option.elim_some] at hread
    split_ifs at hread with hbounds
    cases hread
    exact ⟨start, rfl, not_not.1 hbegin, rfl, hbounds⟩

theorem Progress.opening_read {start : BackupBegin} (hbegin : frame.kind = .backupBegin)
    (hdecode : BackupBegin.decode frame.body = .ok start)
    (hbounds : ¬(start.size = 0 ∨ start.size > maxTransferBytes)) :
    Progress.opening.read frame = .ok (.streaming start Download.start) := by
  rw [Progress.read, hbegin, if_neg (by decide), if_neg (not_not.2 rfl), hdecode]
  exact if_neg hbounds

theorem Progress.Sound.read (h : p.Sound) (hread : p.read frame = .ok p') :
    p'.Sound ∧ p'.content = p.content ++ p.bytes frame := by
  cases p with
  | opening =>
    obtain ⟨start, rfl, -⟩ := Progress.read_opening hread
    exact ⟨rfl, (List.append_nil _).symm⟩
  | streaming start d =>
    rw [Progress.read] at hread
    split_ifs at hread with hend hsize hdigest hchunk
    · cases hread
      refine ⟨trivial, ?_⟩
      rw [Progress.bytes, if_neg (by rw [hend]; decide), List.append_nil]
      rfl
    · obtain ⟨d', htake, heq⟩ := Checked.bind_eq_ok.1 hread
      cases heq
      rw [show d = .of d.file from h, take_of] at htake
      split_ifs at htake with hgood
      cases htake
      refine ⟨rfl, ?_⟩
      rw [Progress.bytes, if_pos (not_not.1 hchunk)]
      rfl
  | complete content => cases hread

theorem foldlM_complete {content : List UInt8} {q : Progress}
    (h : (Progress.complete content).readAll frames = .ok q) : q = .complete content := by
  cases frames with
  | nil => exact (Except.ok.inj h).symm
  | cons frame frames =>
    rw [Progress.readAll, List.foldlM_cons] at h
    cases h

theorem receive_of_foldlM {start : BackupBegin} {d : Download} {content : List UInt8}
    (h : (Progress.streaming start d).readAll frames = .ok (.complete content)) :
    ∃ d', d.receive start.size frames = .ok d' ∧ d'.received = start.size ∧ Sha256.hash d'.hashed = start.sha256 ∧
      d'.file = content := by
  induction frames generalizing d with
  | nil => cases h
  | cons frame frames ih =>
    rw [Progress.readAll, List.foldlM_cons] at h
    obtain ⟨p, hread, hrest⟩ := Checked.bind_eq_ok.1 h
    rw [Progress.read] at hread
    rw [Download.receive]
    split_ifs at hread with hend hsize hdigest hchunk
    · cases hread
      obtain rfl := Progress.complete.inj (foldlM_complete hrest)
      exact ⟨d, if_pos hend, not_not.1 hsize, not_not.1 hdigest, rfl⟩
    · obtain ⟨d', htake, heq⟩ := Checked.bind_eq_ok.1 hread
      cases heq
      obtain ⟨d'', hreceive, hrest⟩ := ih hrest
      refine ⟨d'', ?_, hrest⟩
      rw [if_neg hend, if_neg hchunk, htake]
      exact hreceive

theorem streamBackupPayload_of_after {content : List UInt8} (h : Progress.after frames = .ok (.complete content)) :
    streamBackupPayload frames = .ok content := by
  rw [Progress.after] at h
  cases frames with
  | nil => cases h
  | cons frame frames =>
    rw [Progress.readAll, List.foldlM_cons] at h
    obtain ⟨p, hread, hrest⟩ := Checked.bind_eq_ok.1 h
    obtain ⟨start, rfl, hbegin, hdecode, hbounds⟩ := Progress.read_opening hread
    obtain ⟨d, hreceive, hsize, hdigest, rfl⟩ := receive_of_foldlM hrest
    rw [streamBackupPayload, hbegin, if_neg (by decide), if_neg (not_not.2 rfl), hdecode]
    dsimp only
    rw [if_neg hbounds, hreceive]
    exact (if_neg (not_not.2 hsize)).trans (if_neg (not_not.2 hdigest))

theorem Progress.readAll_cons (hread : p.read frame = .ok p') : p.readAll (frame :: frames) = p'.readAll frames := by
  rw [Progress.readAll, List.foldlM_cons]
  change (p.read frame).bind _ = _
  rw [hread]
  rfl

theorem readAll_of_receive {start : BackupBegin} {d d' : Download} (hreceive : d.receive start.size frames = .ok d')
    (hsize : d'.received = start.size) (hdigest : Sha256.hash d'.hashed = start.sha256) :
    ∃ read, read <+: frames ∧ (Progress.streaming start d).readAll read = .ok (.complete d'.file) := by
  induction frames generalizing d with
  | nil => cases hreceive
  | cons frame frames ih =>
    rw [Download.receive] at hreceive
    split_ifs at hreceive with hend hchunk
    · cases hreceive
      refine ⟨[frame], ⟨frames, rfl⟩, Progress.readAll_cons ?_⟩
      rw [Progress.read, if_pos hend, if_neg (not_not.2 hsize), if_neg (not_not.2 hdigest)]
    · obtain ⟨next, htake, hrest⟩ := Checked.bind_eq_ok.1 hreceive
      obtain ⟨read, hread, hcomplete⟩ := ih hrest
      refine ⟨frame :: read, (List.prefix_cons_inj frame).2 hread, ?_⟩
      have hfirst : (Progress.streaming start d).read frame = .ok (.streaming start next) := by
        rw [Progress.read, if_neg hend, if_neg hchunk, htake]
        rfl
      rw [Progress.readAll_cons hfirst, hcomplete]

theorem after_of_streamBackupPayload {content : List UInt8} (h : streamBackupPayload frames = .ok content) :
    ∃ read, read <+: frames ∧ Progress.after read = .ok (.complete content) := by
  cases frames with
  | nil => cases h
  | cons frame frames =>
    rw [streamBackupPayload] at h
    split_ifs at h with hresponse hbegin
    cases hdecode : BackupBegin.decode frame.body with
    | error e =>
      rw [hdecode] at h
      cases h
    | ok start =>
      rw [hdecode] at h
      dsimp only at h
      split_ifs at h with hbounds
      obtain ⟨d, hreceive, hd⟩ := Checked.bind_eq_ok.1 h
      split_ifs at hd with hsize hdigest
      cases hd
      obtain ⟨read, hread, hcomplete⟩ := readAll_of_receive hreceive (not_not.1 hsize) (not_not.1 hdigest)
      refine ⟨frame :: read, (List.prefix_cons_inj frame).2 hread, ?_⟩
      rw [Progress.after, Progress.readAll_cons (Progress.opening_read (not_not.1 hbegin) hdecode hbounds), hcomplete]

end Frames

/-! ### What holds of the directory -/

/-- The call's file is a whole copy, and it is on the disk. -/
def Whole (fs : Files Name) (c : Call) : Prop :=
  ∃ file, c.file = some file ∧ Progress.after c.frames = .ok (.complete (fs.data file)) ∧
    fs.flushed file = fs.data file

/-- A destination stands for what it stood for at the start, or for nothing or a whole copy. -/
def Destinations (start : Names Name) (r : BackupRun) (now : Names Name) : Prop :=
  ∀ name, Plain name → (∀ file, start name = some file → now name = some file) ∧
    (start name = none → ∀ file, now name = some file →
      ∃ j c, r.calls j = some c ∧ c.target = name ∧ c.file = some file ∧ Whole r.files c)

structure Kept (start : Names Name) (r : BackupRun) : Prop where
  distinct : ∀ i j c d, r.calls i = some c → r.calls j = some d → c.temporary = d.temporary → i = j
  temporary : ∀ j c, r.calls j = some c → ∃ fileName nonce, c.temporary = temporaryName fileName nonce
  target : ∀ j c, r.calls j = some c → Plain c.target ∧ start c.target = none
  checked : ∀ j c, r.calls j = some c → c.phase = .checked → c.file = none ∧ c.frames = []
  file_lt : ∀ j c file, r.calls j = some c → c.file = some file → file < r.files.created
  owner : ∀ i j c d file, r.calls i = some c → r.calls j = some d → c.file = some file → d.file = some file → i = j
  unused : ∀ name, (∃ fileName nonce, name = temporaryName fileName nonce) →
    (∀ j c, r.calls j = some c → c.temporary = name → c.file = none) → r.files.Always fun now => now name = start name
  used : ∀ j c file, r.calls j = some c → c.file = some file →
    r.files.Always fun now => now c.temporary = none ∨ now c.temporary = some file
  receiving : ∀ j c p, r.calls j = some c → c.phase = .receiving p → ∃ file, c.file = some file ∧
    Progress.after c.frames = .ok p ∧ p.Sound ∧ r.files.data file = p.content
  whole : ∀ j c, r.calls j = some c → c.phase = .flushed ∨ c.phase = .renamed → Whole r.files c
  destinations : r.files.Always (Destinations start r)
  renamed : ∀ j c, r.calls j = some c → c.phase = .renamed → r.files.current c.target ≠ none
  returned : ∀ j c, r.calls j = some c → c.phase = .returned true → r.files.Always fun now => now c.target ≠ none

section Turns

variable {fs fs' : Files Name} {c c' : Call} {name : Name} {file : ℕ}

theorem Turn.target_eq (h : Turn fs c fs' c') : c'.target = c.target := by
  cases h <;> rfl

theorem Turn.temporary_eq (h : Turn fs c fs' c') : c'.temporary = c.temporary := by
  cases h <;> rfl

theorem Turn.file_eq (h : Turn fs c fs' c') :
    c'.file = c.file ∨ c.phase = .checked ∧ fs.current c.temporary = none ∧ c'.file = some fs.created := by
  cases h with
  | creates hphase hcreate => exact .inr ⟨hphase, (Files.createExclusive_eq_some hcreate).1, rfl⟩
  | _ => exact .inl rfl

theorem Turn.created_le (h : Turn fs c fs' c') : fs.created ≤ fs'.created := by
  cases h with
  | creates hphase hcreate => exact (Files.createExclusive_eq_some hcreate).2 ▸ Nat.le_succ _
  | renames hphase hrename =>
    obtain ⟨file, -, rfl⟩ := Files.rename_eq_ok hrename
    exact le_rfl
  | _ => exact le_rfl

theorem Turn.file_lt (h : Turn fs c fs' c') (hlt : ∀ file, c.file = some file → file < fs.created)
    (hfile : c'.file = some file) : file < fs'.created := by
  cases h with
  | creates hphase hcreate =>
    cases hfile
    exact (Files.createExclusive_eq_some hcreate).2 ▸ Nat.lt_succ_self _
  | renames hphase hrename =>
    obtain ⟨_, -, rfl⟩ := Files.rename_eq_ok hrename
    exact hlt file hfile
  | _ => exact hlt file hfile

theorem Turn.frame (h : Turn fs c fs' c') (hlt : file < fs.created) (hne : c.file ≠ some file) :
    fs'.data file = fs.data file ∧ fs'.flushed file = fs.flushed file := by
  cases h with
  | creates hphase hcreate =>
    rw [(Files.createExclusive_eq_some hcreate).2]
    exact ⟨Function.update_of_ne hlt.ne _ _, Function.update_of_ne hlt.ne _ _⟩
  | reads frame hphase hfile =>
    have hother : file ≠ _ := fun heq => hne (heq ▸ hfile)
    exact ⟨Function.update_of_ne hother _ _, rfl⟩
  | flushes hphase hfile =>
    have hother : file ≠ _ := fun heq => hne (heq ▸ hfile)
    exact ⟨rfl, Function.update_of_ne hother _ _⟩
  | renames hphase hrename =>
    obtain ⟨_, -, rfl⟩ := Files.rename_eq_ok hrename
    exact ⟨rfl, rfl⟩
  | _ => exact ⟨rfl, rfl⟩

theorem Turn.always {P : Names Name → Prop} (h : Turn fs c fs' c') (hall : fs.Always P) (hnew : P fs'.current) :
    fs'.Always P := by
  cases h with
  | creates hphase hcreate =>
    obtain ⟨-, rfl⟩ := Files.createExclusive_eq_some hcreate
    exact hall.change hnew
  | reads => exact hall
  | flushes => exact hall
  | renames hphase hrename =>
    obtain ⟨_, -, rfl⟩ := Files.rename_eq_ok hrename
    exact hall.change hnew
  | syncs => exact Files.always_sync.2 hall.current
  | fails => exact hall.change hnew
  | stops => exact hall

theorem Turn.current_of_ne (h : Turn fs c fs' c') (htemporary : name ≠ c.temporary) (htarget : name ≠ c.target) :
    fs'.current name = fs.current name := by
  cases h with
  | creates hphase hcreate =>
    rw [(Files.createExclusive_eq_some hcreate).2]
    exact Function.update_of_ne htemporary _ _
  | renames hphase hrename =>
    obtain ⟨_, -, rfl⟩ := Files.rename_eq_ok hrename
    exact Files.renamed_of_ne htemporary htarget _ _
  | fails => exact Function.update_of_ne htemporary _ _
  | _ => rfl

/-- The temporary name comes to stand for the call's file, or for nothing. -/
theorem Turn.current_temporary (h : Turn fs c fs' c') (hne : c.temporary ≠ c.target)
    (hflushed : c.phase = .flushed → c.file ≠ none) :
    fs'.current c.temporary = fs.current c.temporary ∨ c'.file ≠ none ∧
      (fs'.current c.temporary = none ∨ fs'.current c.temporary = c'.file) := by
  cases h with
  | creates hphase hcreate =>
    rw [(Files.createExclusive_eq_some hcreate).2]
    exact .inr ⟨Option.some_ne_none _, .inr (Function.update_self _ _ _)⟩
  | renames hphase hrename =>
    obtain ⟨_, -, rfl⟩ := Files.rename_eq_ok hrename
    exact .inr ⟨hflushed hphase, .inl (Files.renamed_source hne _ _)⟩
  | fails hfile => exact .inr ⟨hfile, .inl (Function.update_self _ _ _)⟩
  | _ => exact .inl rfl

/-- The destination comes to stand for what the temporary name stands for once the file is flushed. -/
theorem Turn.current_target (h : Turn fs c fs' c') (hne : c.temporary ≠ c.target) :
    fs'.current c.target = fs.current c.target ∨ ∃ file, c.phase = .flushed ∧ fs.current c.temporary = some file ∧
      fs'.current c.target = some file := by
  cases h with
  | creates hphase hcreate =>
    rw [(Files.createExclusive_eq_some hcreate).2]
    exact .inl (Function.update_of_ne hne.symm _ _)
  | renames hphase hrename =>
    obtain ⟨file, hsource, rfl⟩ := Files.rename_eq_ok hrename
    exact .inr ⟨file, hphase, hsource, Files.renamed_target _ _ _ _⟩
  | fails => exact .inl (Function.update_of_ne hne.symm _ _)
  | _ => exact .inl rfl

end Turns

/-! ### What a run keeps -/

theorem setCall_self (r : BackupRun) (files : Files Name) (j : ℕ) (c : Call) :
    (r.setCall files j c).calls j = some c :=
  Function.update_self _ _ _

theorem setCall_eq_some {r : BackupRun} {files : Files Name} {i j : ℕ} {c d : Call}
    (h : (r.setCall files j c).calls i = some d) : i = j ∧ d = c ∨ i ≠ j ∧ r.calls i = some d := by
  change Function.update r.calls j (some c) i = some d at h
  by_cases hij : i = j
  · subst hij
    rw [Function.update_self] at h
    exact .inl ⟨rfl, (Option.some.inj h).symm⟩
  · rw [Function.update_of_ne hij] at h
    exact .inr ⟨hij, h⟩

section Steps

variable {start : Names Name} {r : BackupRun} {j : ℕ} {c c' : Call} {files : Files Name}

theorem Kept.temporary_ne_target (h : Kept start r) (hcall : r.calls j = some c) : c.temporary ≠ c.target := by
  obtain ⟨fileName, nonce, htemporary⟩ := h.temporary j c hcall
  exact fun heq => (h.target j c hcall).1 fileName nonce (heq.symm.trans htemporary)

theorem Kept.flushed_file (h : Kept start r) (hcall : r.calls j = some c) (hphase : c.phase = .flushed) :
    c.file ≠ none := by
  obtain ⟨file, hfile, -⟩ := h.whole j c hcall (.inl hphase)
  exact hfile ▸ Option.some_ne_none file

theorem Kept.frame (h : Kept start r) (hcall : r.calls j = some c) (hturn : Turn r.files c files c') {i : ℕ} {d : Call}
    {file : ℕ} (hother : r.calls i = some d) (hne : i ≠ j) (hfile : d.file = some file) :
    files.data file = r.files.data file ∧ files.flushed file = r.files.flushed file :=
  hturn.frame (h.file_lt i d file hother hfile) fun heq => hne (h.owner i j d c file hother hcall hfile heq)

theorem Kept.whole_other (h : Kept start r) (hcall : r.calls j = some c) (hturn : Turn r.files c files c') {i : ℕ}
    {d : Call} (hother : r.calls i = some d) (hne : i ≠ j) (hwhole : Whole r.files d) : Whole files d := by
  obtain ⟨file, hfile, hafter, hflushed⟩ := hwhole
  obtain ⟨hdata, hdisk⟩ := h.frame hcall hturn hother hne hfile
  exact ⟨file, hfile, hdata ▸ hafter, by rw [hdisk, hflushed, hdata]⟩

theorem Kept.whole_self (h : Kept start r) (hcall : r.calls j = some c) (hturn : Turn r.files c files c')
    (hwhole : Whole r.files c) : Whole files c' := by
  obtain ⟨file, hfile, hafter, hflushed⟩ := hwhole
  cases hturn with
  | creates hphase => exact absurd ((h.checked j c hcall hphase).1.symm.trans hfile) (Option.some_ne_none file).symm
  | reads frame hphase hfile' hread =>
    obtain ⟨_, -, hafter', -⟩ := h.receiving j c _ hcall hphase
    obtain rfl := Except.ok.inj (hafter.symm.trans hafter')
    cases hread
  | flushes hphase hfile' =>
    obtain rfl := Option.some.inj (hfile.symm.trans hfile')
    exact ⟨file, hfile, hafter, Function.update_self _ _ _⟩
  | renames hphase hrename =>
    obtain ⟨_, -, rfl⟩ := Files.rename_eq_ok hrename
    exact ⟨file, hfile, hafter, hflushed⟩
  | syncs => exact ⟨file, hfile, hafter, hflushed⟩
  | fails => exact ⟨file, hfile, hafter, hflushed⟩
  | stops => exact ⟨file, hfile, hafter, hflushed⟩

theorem Kept.receiving_self (h : Kept start r) (hcall : r.calls j = some c) (hturn : Turn r.files c files c')
    {p : Progress} (hphase' : c'.phase = .receiving p) :
    ∃ file, c'.file = some file ∧ Progress.after c'.frames = .ok p ∧ p.Sound ∧ files.data file = p.content := by
  cases hturn with
  | creates hphase hcreate =>
    cases hphase'
    obtain ⟨-, rfl⟩ := Files.createExclusive_eq_some hcreate
    refine ⟨_, rfl, ?_, trivial, Function.update_self _ _ _⟩
    rw [(h.checked j c hcall hphase).2]
    rfl
  | reads frame hphase hfile hread =>
    cases hphase'
    obtain ⟨file, hfile', hafter, hsound, hdata⟩ := h.receiving j c _ hcall hphase
    obtain rfl := Option.some.inj (hfile.symm.trans hfile')
    obtain ⟨hsound', hcontent⟩ := hsound.read hread
    refine ⟨_, hfile, Progress.after_concat hafter hread, hsound', ?_⟩
    rw [hcontent, ← hdata]
    exact Function.update_self _ _ _
  | flushes => cases hphase'
  | renames => cases hphase'
  | syncs => cases hphase'
  | fails => cases hphase'
  | stops => cases hphase'

theorem Kept.flushed_self (h : Kept start r) (hcall : r.calls j = some c) (hturn : Turn r.files c files c')
    (hphase' : c'.phase = .flushed ∨ c'.phase = .renamed) : Whole files c' := by
  cases hturn with
  | flushes hphase hfile =>
    obtain ⟨file, hfile', hafter, -, hdata⟩ := h.receiving j c _ hcall hphase
    obtain rfl := Option.some.inj (hfile.symm.trans hfile')
    refine ⟨_, hfile, ?_, Function.update_self _ _ _⟩
    exact hafter.trans (congrArg (fun content => Except.ok (Progress.complete content)) hdata.symm)
  | renames hphase hrename =>
    exact h.whole_self hcall (.renames hphase hrename) (h.whole j c hcall (.inl hphase))
  | creates => rcases hphase' with h | h <;> cases h
  | reads => rcases hphase' with h | h <;> cases h
  | syncs => rcases hphase' with h | h <;> cases h
  | fails => rcases hphase' with h | h <;> cases h
  | stops => rcases hphase' with h | h <;> cases h

theorem setCall_back (hcall : r.calls j = some c) (hturn : Turn r.files c files c') {i : ℕ} {d : Call}
    (hd : (r.setCall files j c').calls i = some d) :
    ∃ d₀, r.calls i = some d₀ ∧ d.target = d₀.target ∧ d.temporary = d₀.temporary ∧
      (d = d₀ ∧ i ≠ j ∨ i = j ∧ d₀ = c ∧ d = c') := by
  rcases setCall_eq_some hd with ⟨rfl, rfl⟩ | ⟨hne, hother⟩
  · exact ⟨c, hcall, hturn.target_eq, hturn.temporary_eq, .inr ⟨rfl, rfl, rfl⟩⟩
  · exact ⟨d, hother, rfl, rfl, .inl ⟨rfl, hne⟩⟩

theorem Kept.file_back (hcall : r.calls j = some c) (hturn : Turn r.files c files c') {i : ℕ} {d : Call} {file : ℕ}
    (hd : (r.setCall files j c').calls i = some d) (hfile : d.file = some file) :
    (∃ d₀, r.calls i = some d₀ ∧ d₀.file = some file ∧ d.temporary = d₀.temporary) ∨
      i = j ∧ c.phase = .checked ∧ r.files.current c.temporary = none ∧ file = r.files.created := by
  obtain ⟨d₀, hd₀, -, htemporary, ⟨rfl, -⟩ | ⟨rfl, rfl, rfl⟩⟩ := setCall_back hcall hturn hd
  · exact .inl ⟨d, hd₀, hfile, rfl⟩
  · rcases hturn.file_eq with hsame | ⟨hchecked, hnone, hnew⟩
    · exact .inl ⟨d₀, hd₀, hsame ▸ hfile, htemporary⟩
    · exact .inr ⟨rfl, hchecked, hnone, Option.some.inj (hfile.symm.trans hnew)⟩

theorem Kept.destinations_turn (h : Kept start r) (hcall : r.calls j = some c) (hturn : Turn r.files c files c') :
    files.Always (Destinations start (r.setCall files j c')) := by
  have hkeep (now : Names Name) (hnow : Destinations start r now) :
      Destinations start (r.setCall files j c') now := by
    intro name hplain
    refine ⟨(hnow name hplain).1, fun hstart file hfile => ?_⟩
    obtain ⟨i, d, hd, rfl, hown, hwhole⟩ := (hnow name hplain).2 hstart file hfile
    by_cases hij : i = j
    · subst hij
      obtain rfl := Option.some.inj (hd.symm.trans hcall)
      refine ⟨i, c', Function.update_self _ _ _, hturn.target_eq, ?_, h.whole_self hcall hturn hwhole⟩
      rcases hturn.file_eq with hsame | ⟨hchecked, -⟩
      · exact hsame.trans hown
      · exact absurd ((h.checked i d hcall hchecked).1.symm.trans hown) (Option.some_ne_none file).symm
    · exact ⟨i, d, (Function.update_of_ne hij _ _).trans hd, rfl, hown, h.whole_other hcall hturn hd hij hwhole⟩
  refine hturn.always (h.destinations.mono hkeep) ?_
  intro name hplain
  have hbefore := hkeep _ h.destinations.current name hplain
  by_cases htarget : name = c.target
  · subst htarget
    refine ⟨fun file hstart => absurd ((h.target j c hcall).2.symm.trans hstart) (Option.some_ne_none file).symm,
      fun hstart file hfile => ?_⟩
    rcases hturn.current_target (h.temporary_ne_target hcall) with hsame | ⟨file', hphase, hsource, hnew⟩
    · exact hbefore.2 hstart file (hsame ▸ hfile)
    · obtain rfl := Option.some.inj (hfile.symm.trans hnew)
      have hwhole := h.whole j c hcall (.inl hphase)
      obtain ⟨own, hown, -⟩ := h.whole j c hcall (.inl hphase)
      have hsame : some file = some own := by
        rcases (h.used j c own hcall hown).current with hnone | hsome
        · exact absurd (hnone.symm.trans hsource) (Option.some_ne_none file).symm
        · exact hsource.symm.trans hsome
      have hfile' : c'.file = some file := by
        rcases hturn.file_eq with heq | ⟨hchecked, -⟩
        · exact heq.trans (hown.trans hsame.symm)
        · exact absurd (hphase.symm.trans hchecked) (by simp)
      exact ⟨j, c', Function.update_self _ _ _, hturn.target_eq, hfile', h.whole_self hcall hturn hwhole⟩
  · have htemporary : name ≠ c.temporary := by
      obtain ⟨fileName, nonce, heq⟩ := h.temporary j c hcall
      exact fun hname => hplain fileName nonce (hname.trans heq)
    rw [hturn.current_of_ne htemporary htarget]
    exact hbefore

/-- A temporary name stands for its call's file, or for nothing. -/
theorem Kept.used_turn (h : Kept start r) (hcall : r.calls j = some c) (hturn : Turn r.files c files c') (i : ℕ)
    (d : Call) (file : ℕ) (hd : (r.setCall files j c').calls i = some d) (hfile : d.file = some file) :
    files.Always fun now => now d.temporary = none ∨ now d.temporary = some file := by
  have hne := h.temporary_ne_target hcall
  have hold : r.files.Always fun now => now d.temporary = none ∨ now d.temporary = some file := by
    rcases Kept.file_back hcall hturn hd hfile with ⟨d₀, hd₀, hfile₀, htemporary⟩ | ⟨rfl, hchecked, hnone, -⟩
    · rw [htemporary]
      exact h.used i d₀ file hd₀ hfile₀
    · obtain ⟨d₀, hd₀, -, htemporary, -⟩ := setCall_back hcall hturn hd
      obtain rfl := Option.some.inj (hd₀.symm.trans hcall)
      rw [htemporary]
      have hunused := h.unused d₀.temporary (h.temporary i d₀ hcall) fun k e he heq => by
        obtain rfl := h.distinct k i e d₀ he hcall heq
        obtain rfl := Option.some.inj (he.symm.trans hcall)
        exact (h.checked k e hcall hchecked).1
      have hstart : start d₀.temporary = none := hunused.current.symm.trans hnone
      exact hunused.mono fun now hnow => .inl (hnow.trans hstart)
  refine hturn.always hold ?_
  by_cases hij : i = j
  · subst hij
    obtain rfl := Option.some.inj (hd.symm.trans (Function.update_self _ _ _))
    rw [hturn.temporary_eq] at hold ⊢
    rcases hturn.current_temporary hne (h.flushed_file hcall) with hsame | ⟨-, hnone | hsome⟩
    · rw [hsame]
      exact hold.current
    · exact .inl hnone
    · exact .inr (hsome.trans hfile)
  · have hother : r.calls i = some d := (Function.update_of_ne hij _ _).symm.trans hd
    have htemporary : d.temporary ≠ c.temporary := fun heq => hij (h.distinct i j d c hother hcall heq)
    have htarget : d.temporary ≠ c.target := by
      obtain ⟨fileName, nonce, heq⟩ := h.temporary i d hother
      exact fun hname => (h.target j c hcall).1 fileName nonce (hname.symm.trans heq)
    rw [hturn.current_of_ne htemporary htarget]
    exact hold.current

theorem Kept.unused_turn (h : Kept start r) (hcall : r.calls j = some c) (hturn : Turn r.files c files c')
    (name : Name) (hname : ∃ fileName nonce, name = temporaryName fileName nonce)
    (hunused : ∀ i d, (r.setCall files j c').calls i = some d → d.temporary = name → d.file = none) :
    files.Always fun now => now name = start name := by
  have hne := h.temporary_ne_target hcall
  have hold : r.files.Always fun now => now name = start name := by
    refine h.unused name hname fun i d hd heq => ?_
    by_cases hij : i = j
    · subst hij
      obtain rfl := Option.some.inj (hd.symm.trans hcall)
      have hnone := hunused i c' (Function.update_self _ _ _) (hturn.temporary_eq.trans heq)
      rcases hturn.file_eq with hsame | ⟨-, -, hnew⟩
      · exact hsame.symm.trans hnone
      · exact absurd (hnone.symm.trans hnew) (Option.some_ne_none _).symm
    · exact hunused i d ((Function.update_of_ne hij _ _).trans hd) heq
  refine hturn.always hold ?_
  have hsame : files.current name = r.files.current name := by
    by_cases htemporary : name = c.temporary
    · subst htemporary
      rcases hturn.current_temporary hne (h.flushed_file hcall) with hsame | ⟨hfile, -⟩
      · exact hsame
      · exact absurd (hunused j c' (Function.update_self _ _ _) hturn.temporary_eq) hfile
    · obtain ⟨fileName, nonce, heq⟩ := hname
      exact hturn.current_of_ne htemporary fun htarget =>
        (h.target j c hcall).1 fileName nonce (htarget.symm.trans heq)
  exact hsame.trans hold.current

/-- A destination stands for something from the rename on. -/
theorem Kept.target_some (h : Kept start r) (hcall : r.calls j = some c) (hturn : Turn r.files c files c') {i : ℕ}
    {d : Call} (hd : r.calls i = some d) (hsome : r.files.current d.target ≠ none) :
    files.current d.target ≠ none := by
  have htemporary : d.target ≠ c.temporary := by
    obtain ⟨fileName, nonce, heq⟩ := h.temporary j c hcall
    exact fun hname => (h.target i d hd).1 fileName nonce (hname.trans heq)
  by_cases htarget : d.target = c.target
  · rw [htarget] at hsome ⊢
    rcases hturn.current_target (h.temporary_ne_target hcall) with hsame | ⟨file, -, -, hnew⟩
    · exact hsame ▸ hsome
    · exact hnew ▸ Option.some_ne_none file
  · rw [hturn.current_of_ne htemporary htarget]
    exact hsome

theorem Kept.turn (h : Kept start r) (hcall : r.calls j = some c) (hturn : Turn r.files c files c') :
    Kept start (r.setCall files j c') where
  distinct i k d e hd he heq := by
    obtain ⟨d₀, hd₀, -, hdt, -⟩ := setCall_back hcall hturn hd
    obtain ⟨e₀, he₀, -, het, -⟩ := setCall_back hcall hturn he
    exact h.distinct i k d₀ e₀ hd₀ he₀ (hdt.symm.trans (heq.trans het))
  temporary i d hd := by
    obtain ⟨d₀, hd₀, -, hdt, -⟩ := setCall_back hcall hturn hd
    rw [hdt]
    exact h.temporary i d₀ hd₀
  target i d hd := by
    obtain ⟨d₀, hd₀, hdt, -, -⟩ := setCall_back hcall hturn hd
    rw [hdt]
    exact h.target i d₀ hd₀
  checked i d hd hphase := by
    obtain ⟨d₀, hd₀, -, -, ⟨rfl, -⟩ | ⟨rfl, rfl, rfl⟩⟩ := setCall_back hcall hturn hd
    · exact h.checked i d hd₀ hphase
    · cases hturn <;> cases hphase
  file_lt i d file hd hfile := by
    obtain ⟨d₀, hd₀, -, -, ⟨rfl, -⟩ | ⟨rfl, rfl, rfl⟩⟩ := setCall_back hcall hturn hd
    · exact (h.file_lt i d file hd₀ hfile).trans_le hturn.created_le
    · exact hturn.file_lt (h.file_lt i d₀ · hcall) hfile
  owner i k d e file hd he hdf hef := by
    rcases Kept.file_back hcall hturn hd hdf with ⟨d₀, hd₀, hdf₀, -⟩ | ⟨rfl, -, -, hdnew⟩ <;>
      rcases Kept.file_back hcall hturn he hef with ⟨e₀, he₀, hef₀, -⟩ | ⟨rfl, -, -, henew⟩
    · exact h.owner i k d₀ e₀ file hd₀ he₀ hdf₀ hef₀
    · exact absurd (henew ▸ h.file_lt i d₀ file hd₀ hdf₀) (lt_irrefl _)
    · exact absurd (hdnew ▸ h.file_lt k e₀ file he₀ hef₀) (lt_irrefl _)
    · rfl
  unused := h.unused_turn hcall hturn
  used := h.used_turn hcall hturn
  receiving i d p hd hphase := by
    obtain ⟨d₀, hd₀, -, -, ⟨rfl, hne⟩ | ⟨rfl, rfl, rfl⟩⟩ := setCall_back hcall hturn hd
    · obtain ⟨file, hfile, hafter, hsound, hdata⟩ := h.receiving i d p hd₀ hphase
      exact ⟨file, hfile, hafter, hsound, (h.frame hcall hturn hd₀ hne hfile).1.trans hdata⟩
    · exact h.receiving_self hcall hturn hphase
  whole i d hd hphase := by
    obtain ⟨d₀, hd₀, -, -, ⟨rfl, hne⟩ | ⟨rfl, rfl, rfl⟩⟩ := setCall_back hcall hturn hd
    · exact h.whole_other hcall hturn hd₀ hne (h.whole i d hd₀ hphase)
    · exact h.flushed_self hcall hturn hphase
  destinations := h.destinations_turn hcall hturn
  renamed i d hd hphase := by
    obtain ⟨d₀, hd₀, -, -, ⟨rfl, hne⟩ | ⟨rfl, rfl, rfl⟩⟩ := setCall_back hcall hturn hd
    · exact h.target_some hcall hturn hd₀ (h.renamed i d hd₀ hphase)
    · cases hturn with
      | renames hflushed hrename =>
        obtain ⟨file, -, rfl⟩ := Files.rename_eq_ok hrename
        change Files.renamed r.files.current d₀.temporary d₀.target file d₀.target ≠ none
        rw [Files.renamed_target]
        exact Option.some_ne_none file
      | _ => cases hphase
  returned i d hd hphase := by
    obtain ⟨d₀, hd₀, -, -, ⟨rfl, hne⟩ | ⟨rfl, rfl, rfl⟩⟩ := setCall_back hcall hturn hd
    · exact hturn.always (h.returned i d hd₀ hphase)
        (h.target_some hcall hturn hd₀ (h.returned i d hd₀ hphase).current)
    · cases hturn with
      | syncs hrenamed => exact Files.always_sync.2 (h.renamed i d₀ hcall hrenamed)
      | _ => cases hphase

theorem setCall_begins {files : Files Name} {i : ℕ} {d : Call} (hfree : r.calls j = none) (hd : r.calls i = some d) :
    (r.setCall files j c).calls i = some d := by
  have hne : i ≠ j := fun hij => absurd (hfree.symm.trans (hij ▸ hd)) (Option.some_ne_none d).symm
  exact (Function.update_of_ne hne _ _).trans hd

theorem Kept.begins (h : Kept start r) {target : Name} (nonce : ℕ) (hfree : r.calls j = none) (hplain : Plain target)
    (habsent : r.files.current target = none)
    (hfresh : ∀ i c, r.calls i = some c → c.temporary ≠ temporaryName target nonce) :
    Kept start (r.setCall r.files j ⟨target, temporaryName target nonce, none, [], .checked⟩) where
  distinct i k d e hd he heq := by
    rcases setCall_eq_some hd with ⟨rfl, rfl⟩ | ⟨-, hd'⟩ <;> rcases setCall_eq_some he with ⟨rfl, rfl⟩ | ⟨-, he'⟩
    · rfl
    · exact absurd heq.symm (hfresh k e he')
    · exact absurd heq (hfresh i d hd')
    · exact h.distinct i k d e hd' he' heq
  temporary i d hd := by
    rcases setCall_eq_some hd with ⟨rfl, rfl⟩ | ⟨-, hd⟩
    · exact ⟨target, nonce, rfl⟩
    · exact h.temporary i d hd
  target i d hd := by
    rcases setCall_eq_some hd with ⟨rfl, rfl⟩ | ⟨-, hd⟩
    · refine ⟨hplain, ?_⟩
      cases hstart : start target with
      | none => rfl
      | some file =>
        have hsome := (h.destinations.current target hplain).1 file hstart
        exact absurd (habsent.symm.trans hsome) (Option.some_ne_none file).symm
    · exact h.target i d hd
  checked i d hd hphase := by
    rcases setCall_eq_some hd with ⟨rfl, rfl⟩ | ⟨-, hd⟩
    · exact ⟨rfl, rfl⟩
    · exact h.checked i d hd hphase
  file_lt i d file hd hfile := by
    rcases setCall_eq_some hd with ⟨rfl, rfl⟩ | ⟨-, hd⟩
    · cases hfile
    · exact h.file_lt i d file hd hfile
  owner i k d e file hd he hdf hef := by
    rcases setCall_eq_some hd with ⟨rfl, rfl⟩ | ⟨-, hd⟩
    · cases hdf
    · rcases setCall_eq_some he with ⟨rfl, rfl⟩ | ⟨-, he⟩
      · cases hef
      · exact h.owner i k d e file hd he hdf hef
  unused name hname hunused := h.unused name hname fun i d hd heq => hunused i d (setCall_begins hfree hd) heq
  used i d file hd hfile := by
    rcases setCall_eq_some hd with ⟨rfl, rfl⟩ | ⟨-, hd⟩
    · cases hfile
    · exact h.used i d file hd hfile
  receiving i d p hd hphase := by
    rcases setCall_eq_some hd with ⟨rfl, rfl⟩ | ⟨-, hd⟩
    · cases hphase
    · exact h.receiving i d p hd hphase
  whole i d hd hphase := by
    rcases setCall_eq_some hd with ⟨rfl, rfl⟩ | ⟨-, hd⟩
    · rcases hphase with hphase | hphase <;> cases hphase
    · exact h.whole i d hd hphase
  destinations := h.destinations.mono fun now hnow name hplain =>
    ⟨(hnow name hplain).1, fun hstart file hfile => by
      obtain ⟨i, d, hd, hrest⟩ := (hnow name hplain).2 hstart file hfile
      exact ⟨i, d, setCall_begins hfree hd, hrest⟩⟩
  renamed i d hd hphase := by
    rcases setCall_eq_some hd with ⟨rfl, rfl⟩ | ⟨-, hd⟩
    · cases hphase
    · exact h.renamed i d hd hphase
  returned i d hd hphase := by
    rcases setCall_eq_some hd with ⟨rfl, rfl⟩ | ⟨-, hd⟩
    · cases hphase
    · exact h.returned i d hd hphase

/-! ### A power loss -/

theorem interrupted_eq (c : Call) :
    c.interrupted = { c with phase := c.interrupted.phase } ∧
      (c.interrupted.phase = .lost ∨ ∃ done, c.phase = .returned done ∧ c.interrupted.phase = .returned done) := by
  rw [Call.interrupted]
  split_ifs with hlive
  · exact ⟨rfl, .inl rfl⟩
  · refine ⟨rfl, ?_⟩
    cases hphase : c.phase with
    | returned done => exact .inr ⟨done, rfl, rfl⟩
    | lost => exact .inl rfl
    | _ =>
      rw [hphase] at hlive
      exact absurd rfl hlive

theorem interrupted_back {i : ℕ} {d : Call} (hd : (r.calls i).map Call.interrupted = some d) :
    ∃ d₀, r.calls i = some d₀ ∧ d.target = d₀.target ∧ d.temporary = d₀.temporary ∧ d.file = d₀.file ∧
      (d.phase = .lost ∨ ∃ done, d₀.phase = .returned done ∧ d.phase = .returned done) := by
  obtain ⟨d₀, hd₀, rfl⟩ := Option.map_eq_some_iff.1 hd
  obtain ⟨heq, hphase⟩ := interrupted_eq d₀
  refine ⟨d₀, hd₀, ?_, ?_, ?_, hphase⟩ <;> rw [heq]

theorem Whole.powerLoss {fs fs' : Files Name} (h : Whole fs c) (hloss : Files.PowerLoss fs fs') :
    Whole fs' c.interrupted := by
  obtain ⟨file, hfile, hafter, hflushed⟩ := h
  rw [(interrupted_eq c).1]
  cases hloss with
  | lost data hnames hdata =>
    have hsame : data file = fs.data file := by
      obtain ⟨hlow, hhigh⟩ := hdata file
      rw [hflushed] at hlow
      exact hhigh.eq_of_length_le hlow.length_le
    refine ⟨file, hfile, ?_, rfl⟩
    change _ = Except.ok (Progress.complete (data file))
    rw [hsame]
    exact hafter

theorem Kept.powerLoss (h : Kept start r) (hloss : Files.PowerLoss r.files files) :
    Kept start ⟨files, fun j => (r.calls j).map Call.interrupted⟩ where
  distinct i k d e hd he heq := by
    obtain ⟨d₀, hd₀, -, hdt, -⟩ := interrupted_back hd
    obtain ⟨e₀, he₀, -, het, -⟩ := interrupted_back he
    exact h.distinct i k d₀ e₀ hd₀ he₀ (hdt.symm.trans (heq.trans het))
  temporary i d hd := by
    obtain ⟨d₀, hd₀, -, hdt, -⟩ := interrupted_back hd
    rw [hdt]
    exact h.temporary i d₀ hd₀
  target i d hd := by
    obtain ⟨d₀, hd₀, hdt, -⟩ := interrupted_back hd
    rw [hdt]
    exact h.target i d₀ hd₀
  checked i d hd hphase := by
    obtain ⟨d₀, -, -, -, -, hlost | ⟨done, -, hdone⟩⟩ := interrupted_back hd
    · cases hphase.symm.trans hlost
    · cases hphase.symm.trans hdone
  file_lt i d file hd hfile := by
    obtain ⟨d₀, hd₀, -, -, hdf, -⟩ := interrupted_back hd
    have hlt := h.file_lt i d₀ file hd₀ (hdf.symm.trans hfile)
    cases hloss
    exact hlt
  owner i k d e file hd he hdf hef := by
    obtain ⟨d₀, hd₀, -, -, hd', -⟩ := interrupted_back hd
    obtain ⟨e₀, he₀, -, -, he', -⟩ := interrupted_back he
    exact h.owner i k d₀ e₀ file hd₀ he₀ (hd'.symm.trans hdf) (he'.symm.trans hef)
  unused name hname hunused := by
    refine (h.unused name hname fun i d hd heq => ?_).powerLoss hloss
    obtain ⟨hsame, -⟩ := interrupted_eq d
    have hinterrupted : (r.calls i).map Call.interrupted = some d.interrupted := congrArg (Option.map _) hd
    have hnone := hunused i d.interrupted hinterrupted (by rw [hsame]; exact heq)
    rw [hsame] at hnone
    exact hnone
  used i d file hd hfile := by
    obtain ⟨d₀, hd₀, -, hdt, hdf, -⟩ := interrupted_back hd
    rw [hdt]
    exact (h.used i d₀ file hd₀ (hdf.symm.trans hfile)).powerLoss hloss
  receiving i d p hd hphase := by
    obtain ⟨d₀, -, -, -, -, hlost | ⟨done, -, hdone⟩⟩ := interrupted_back hd
    · cases hphase.symm.trans hlost
    · cases hphase.symm.trans hdone
  whole i d hd hphase := by
    obtain ⟨d₀, -, -, -, -, hlost | ⟨done, -, hdone⟩⟩ := interrupted_back hd <;> rcases hphase with hphase | hphase
    · cases hphase.symm.trans hlost
    · cases hphase.symm.trans hlost
    · cases hphase.symm.trans hdone
    · cases hphase.symm.trans hdone
  destinations := (h.destinations.powerLoss hloss).mono fun now hnow name hplain =>
    ⟨(hnow name hplain).1, fun hstart file hfile => by
      obtain ⟨i, d, hd, htarget, hown, hwhole⟩ := (hnow name hplain).2 hstart file hfile
      have hsame := (interrupted_eq d).1
      refine ⟨i, d.interrupted, congrArg (Option.map _) hd, ?_, ?_, hwhole.powerLoss hloss⟩
      · rw [hsame]
        exact htarget
      · rw [hsame]
        exact hown⟩
  renamed i d hd hphase := by
    obtain ⟨d₀, -, -, -, -, hlost | ⟨done, -, hdone⟩⟩ := interrupted_back hd
    · cases hphase.symm.trans hlost
    · cases hphase.symm.trans hdone
  returned i d hd hphase := by
    obtain ⟨d₀, hd₀, hdt, -, -, hlost | ⟨done, hdone₀, hdone⟩⟩ := interrupted_back hd
    · cases hphase.symm.trans hlost
    · cases hphase.symm.trans hdone
      rw [hdt]
      exact (h.returned i d₀ hd₀ hdone₀).powerLoss hloss

end Steps

/-! ### Runs -/

section Runs

variable {fs : Files Name} {r r' : BackupRun}

theorem Kept.started (hsettled : Settled fs) (h : Started fs r) : Kept fs.current r := by
  obtain ⟨rfl, hnone⟩ := h
  have hno {j : ℕ} {c : Call} (hcall : r.calls j = some c) : False :=
    absurd ((hnone j).symm.trans hcall) (Option.some_ne_none c).symm
  have hnow (P : Names Name → Prop) (hcurrent : P r.files.current) : r.files.Always P := by
    intro names hnames
    rw [hsettled.earlier] at hnames
    rw [List.mem_singleton.1 hnames]
    exact hcurrent
  exact
    { distinct := fun _ _ _ _ hcall => (hno hcall).elim
      temporary := fun _ _ hcall => (hno hcall).elim
      target := fun _ _ hcall => (hno hcall).elim
      checked := fun _ _ hcall => (hno hcall).elim
      file_lt := fun _ _ _ hcall => (hno hcall).elim
      owner := fun _ _ _ _ _ hcall => (hno hcall).elim
      unused := fun _ _ _ => hnow _ rfl
      used := fun _ _ _ hcall => (hno hcall).elim
      receiving := fun _ _ _ hcall => (hno hcall).elim
      whole := fun _ _ hcall => (hno hcall).elim
      destinations := hnow _ fun _ _ => ⟨fun _ hfile => hfile, fun hstart file hfile =>
        absurd (hstart.symm.trans hfile) (Option.some_ne_none file).symm⟩
      renamed := fun _ _ hcall => (hno hcall).elim
      returned := fun _ _ hcall => (hno hcall).elim }

theorem Kept.step {start : Names Name} (h : Kept start r) (hstep : Step r r') : Kept start r' := by
  cases hstep with
  | begins nonce hfree hplain habsent hfresh => exact h.begins nonce hfree hplain habsent hfresh
  | turn hcall hturn => exact h.turn hcall hturn
  | powerLoss hloss => exact h.powerLoss hloss

/-- The files of the start are as they were, and no call has one of them. -/
structure Untouched (fs : Files Name) (r : BackupRun) : Prop where
  created : fs.created ≤ r.files.created
  file : ∀ j c file, r.calls j = some c → c.file = some file → fs.created ≤ file
  data : ∀ file, file < fs.created → r.files.data file = fs.data file ∧ r.files.flushed file = fs.data file

theorem Untouched.step (h : Untouched fs r) (hstep : Step r r') : Untouched fs r' := by
  cases hstep with
  | begins nonce hfree hplain habsent hfresh =>
    refine ⟨h.created, fun i d file hd hfile => ?_, h.data⟩
    rcases setCall_eq_some hd with ⟨rfl, rfl⟩ | ⟨-, hd⟩
    · cases hfile
    · exact h.file i d file hd hfile
  | turn hcall hturn =>
    refine ⟨h.created.trans hturn.created_le, fun i d file hd hfile => ?_, fun file hlt => ?_⟩
    · rcases Kept.file_back hcall hturn hd hfile with ⟨d₀, hd₀, hfile₀, -⟩ | ⟨-, -, -, rfl⟩
      · exact h.file i d₀ file hd₀ hfile₀
      · exact h.created
    · obtain ⟨hdata, hflushed⟩ := hturn.frame (hlt.trans_le h.created) fun hfile =>
        absurd (h.file _ _ file hcall hfile) (Nat.not_le.2 hlt)
      exact ⟨hdata.trans (h.data file hlt).1, hflushed.trans (h.data file hlt).2⟩
  | powerLoss hloss =>
    refine ⟨?_, fun i d file hd hfile => ?_, fun file hlt => ?_⟩
    · cases hloss
      exact h.created
    · obtain ⟨d₀, hd₀, -, -, hdf, -⟩ := interrupted_back hd
      exact h.file i d₀ file hd₀ (hdf.symm.trans hfile)
    · obtain ⟨hdata, hflushed⟩ := h.data file hlt
      cases hloss with
      | lost data hnames hbetween =>
        obtain ⟨hlow, hhigh⟩ := hbetween file
        rw [hflushed] at hlow
        rw [hdata] at hhigh
        have hsame : data file = fs.data file := hhigh.eq_of_length_le hlow.length_le
        exact ⟨hsame, hsame⟩

theorem untouched_of_started (hsettled : Settled fs) (h : Started fs r) : Untouched fs r := by
  obtain ⟨rfl, hnone⟩ := h
  refine ⟨le_rfl, fun j c file hcall => ?_, fun file _ => ⟨rfl, hsettled.flushed file⟩⟩
  exact absurd ((hnone j).symm.trans hcall) (Option.some_ne_none c).symm

/-! ### A download that nothing disturbs -/

theorem reachable_turn {j : ℕ} {files files' : Files Name} {c c' : Call}
    (h : Reachable (Started fs) Step (r.setCall files j c)) (hturn : Turn files c files' c') :
    Reachable (Started fs) Step (r.setCall files' j c') := by
  have hstep := h.step (Step.turn (setCall_self r files j c) hturn)
  have hsame : (r.setCall files j c).setCall files' j c' = r.setCall files' j c' := by
    rw [BackupRun.setCall, BackupRun.setCall, BackupRun.setCall, Function.update_idem]
  exact hsame ▸ hstep

theorem reachable_reads {j file : ℕ} {files : Files Name} {c : Call} {p q : Progress} {frames : List Frame}
    (h : Reachable (Started fs) Step (r.setCall files j c)) (hfile : c.file = some file)
    (hphase : c.phase = .receiving p) (hread : p.readAll frames = .ok q) :
    ∃ files', files'.current = files.current ∧ Reachable (Started fs) Step
      (r.setCall files' j { c with frames := c.frames ++ frames, phase := .receiving q }) := by
  induction frames generalizing files c p with
  | nil =>
    cases hread
    refine ⟨files, rfl, ?_⟩
    rw [List.append_nil, ← hphase]
    exact h
  | cons frame frames ih =>
    rw [Progress.readAll, List.foldlM_cons] at hread
    obtain ⟨p', hfirst, hrest⟩ := Checked.bind_eq_ok.1 hread
    obtain ⟨files', hcurrent, hreach⟩ := ih (reachable_turn h (.reads frame hphase hfile hfirst)) hfile rfl hrest
    refine ⟨files', hcurrent, ?_⟩
    rw [List.append_assoc] at hreach
    exact hreach

/-- A download that nothing disturbs succeeds on whatever `streamBackupPayload` accepts. -/
theorem reachable_returned (h : Reachable (Started fs) Step r) {j nonce : ℕ} {target : Name} {frames : List Frame}
    {content : List UInt8} (hfree : r.calls j = none) (hplain : Plain target) (habsent : r.files.current target = none)
    (hfresh : ∀ i c, r.calls i = some c → c.temporary ≠ temporaryName target nonce)
    (hunused : r.files.current (temporaryName target nonce) = none)
    (haccepts : streamBackupPayload frames = .ok content) :
    ∃ r', Reachable (Started fs) Step r' ∧
      ∃ c, r'.calls j = some c ∧ c.target = target ∧ c.frames <+: frames ∧ c.phase = .returned true := by
  obtain ⟨read, hpart, hread⟩ := after_of_streamBackupPayload haccepts
  have hbegins := h.step (Step.begins nonce hfree hplain habsent hfresh)
  have hcreate := Files.createExclusive_of hunused
  obtain ⟨files, hcurrent, hreads⟩ := reachable_reads (reachable_turn hbegins (.creates rfl hcreate)) rfl rfl hread
  have hflushed := reachable_turn hreads (.flushes rfl rfl)
  have hsource : (files.syncFile r.files.created).current (temporaryName target nonce) = some r.files.created := by
    change files.current _ = _
    rw [hcurrent]
    exact Function.update_self _ _ _
  have hrenamed := reachable_turn hflushed (.renames rfl (Files.rename_of hsource))
  exact ⟨_, reachable_turn hrenamed (.syncs rfl), _, setCall_self _ _ _ _, rfl, hpart, rfl⟩

/-! ### The result -/

/-- The whole of the file is on the disk, and it is what a download under the name has accepted. -/
def Accepted (r : BackupRun) (name : Name) (file : ℕ) : Prop :=
  r.files.flushed file = r.files.data file ∧
    ∃ j c, r.calls j = some c ∧ c.target = name ∧ streamBackupPayload c.frames = .ok (r.files.data file)

/-- Whatever downloads do in a directory, in whatever order, with whatever servers they talk to, wherever they fail or
stop, and whatever a power loss brings back: a file that was there keeps its name and its content, and any other name
stands for nothing or for a copy that some download under that name has accepted, the whole of it on the disk; once a
download has returned successfully its destination stands for one. A download that nothing disturbs succeeds. -/
theorem downloads_whole (hsettled : Settled fs) (h : Reachable (Started fs) Step r) :
    (r.files.Always fun now => ∀ name, Plain name →
      (∀ file, fs.current name = some file →
        now name = some file ∧ r.files.data file = fs.data file ∧ r.files.flushed file = fs.data file) ∧
      (fs.current name = none → ∀ file, now name = some file → Accepted r name file)) ∧
    (∀ j c, r.calls j = some c → c.phase = .returned true →
      r.files.Always fun now => ∃ file, now c.target = some file ∧ Accepted r c.target file) ∧
    ∀ j nonce target frames content, r.calls j = none → Plain target → r.files.current target = none →
      (∀ i c, r.calls i = some c → c.temporary ≠ temporaryName target nonce) →
      r.files.current (temporaryName target nonce) = none → streamBackupPayload frames = .ok content →
      ∃ r', Reachable (Started fs) Step r' ∧
        ∃ c, r'.calls j = some c ∧ c.target = target ∧ c.frames <+: frames ∧ c.phase = .returned true := by
  have hkept : Kept fs.current r :=
    h.invariant (fun _ hstarted => Kept.started hsettled hstarted) fun _ _ hkept hstep => hkept.step hstep
  have huntouched : Untouched fs r :=
    h.invariant (fun _ hstarted => untouched_of_started hsettled hstarted) fun _ _ hold hstep => hold.step hstep
  have haccepted (now : Names Name) (hnow : Destinations fs.current r now) (name : Name) (hplain : Plain name)
      (hnone : fs.current name = none) (file : ℕ) (hfile : now name = some file) : Accepted r name file := by
    obtain ⟨j, c, hcall, htarget, hown, own, hown', hafter, hflushed⟩ := (hnow name hplain).2 hnone file hfile
    obtain rfl := Option.some.inj (hown.symm.trans hown')
    exact ⟨hflushed, j, c, hcall, htarget, streamBackupPayload_of_after hafter⟩
  refine ⟨hkept.destinations.mono fun now hnow name hplain => ⟨fun file hfile => ?_, haccepted now hnow name hplain⟩,
    fun j c hcall hphase now hnow => ?_, fun _ _ _ _ _ => reachable_returned h⟩
  · exact ⟨(hnow name hplain).1 file hfile, huntouched.data file (hsettled.file_lt name file hfile)⟩
  · obtain ⟨hplain, hnone⟩ := hkept.target j c hcall
    obtain ⟨file, hfile⟩ := Option.ne_none_iff_exists'.1 (hkept.returned j c hcall hphase now hnow)
    exact ⟨file, hfile, haccepted now (hkept.destinations now hnow) c.target hplain hnone file hfile⟩

end Runs

def sampleName : Name :=
  asciiBytes "b"

theorem plain_sampleName : Plain sampleName := by
  intro fileName nonce h
  have hhead : (temporaryName fileName nonce).head? = some 46 := rfl
  rw [← h] at hhead
  exact absurd hhead (by decide)

theorem settled_empty : Settled (Files.empty : Files Name) :=
  ⟨rfl, fun _ => rfl, fun _ file hfile => absurd hfile.symm (Option.some_ne_none file)⟩

/-- A download into an empty directory. -/
theorem downloads_whole_sample : ∃ r : BackupRun, ∃ c, r.calls 0 = some c ∧ c.target = sampleName ∧
    c.phase = .returned true ∧
      r.files.Always fun now => ∃ file, now sampleName = some file ∧ Accepted r sampleName file := by
  have hstart : Reachable (Started Files.empty) Step ⟨Files.empty, fun _ => none⟩ := .start ⟨rfl, fun _ => rfl⟩
  have htiles : Chunks.Tiles 0 [(0, [7])] ([7] : List UInt8) := .cons (List.cons_ne_nil 7 []) .nil
  have haccepts : streamBackupPayload (backupFrames ⟨1, Sha256.hash [7]⟩ [(0, [7])]) = .ok [7] :=
    streamBackupPayload_eq_ok_iff.2 ⟨[(0, [7])], [], [], rfl, htiles, by decide, by decide⟩
  obtain ⟨r, hreach, c, hcall, htarget, -, hphase⟩ := (downloads_whole settled_empty hstart).2.2 0 0 _ _ _ rfl
    plain_sampleName rfl (fun _ _ hnone => absurd hnone.symm (Option.some_ne_none _)) rfl haccepts
  refine ⟨r, c, hcall, htarget, hphase, ?_⟩
  rw [← htarget]
  exact (downloads_whole settled_empty hreach).2.1 0 c hcall hphase

end Backup

end Zaxonlite

end
