import Zenstier.Concurrent.Journal

/-!
# Files, their names, and crashes

A file system keeps its files apart from their names: a directory says which inode a name stands
for, and who has opened a file goes on writing to its inode whatever becomes of the name.  A
crash loses what has not been synced: of a file that has been written to since its last sync
anything may be left, and of the directory any earlier one may come back.

A file that has been written to by nobody but the program that has created it, and that has been
synced by it at the end, is what the program has made of it from then on.  Where nothing but
such files is moved to a name, what can be read under that name, even after a crash, is what was
there at the start or the whole output of one of the programs.
-/

namespace Files

open Concurrent Prog

inductive FileErrorKind
  | exist
  | notExist
  | other
deriving DecidableEq, Repr

structure FileError where
  kind : FileErrorKind
  text : String
deriving DecidableEq, Repr

/-- `fmt.Errorf` with a context. -/
def FileError.wrap (context : String) (e : FileError) : FileError :=
  { e with text := context ++ ": " ++ e.text }

structure Inode where
  content : List UInt8 := []
  /-- Nothing has been written since the last sync. -/
  synced : Bool := false
deriving DecidableEq

/-- A file system whose files have names in `N`. -/
structure FileSystem (N : Type) where
  dir : N → Option Nat
  /-- The directories that a crash may bring back. -/
  earlier : List (N → Option Nat)
  inode : Nat → Inode
  /-- The next inode that is allocated. -/
  next : Nat

/-- A file system at boot: all that it has is on disk. -/
structure Disk (N : Type) extends FileSystem N where
  onDisk : earlier = []
  linked : ∀ name n, dir name = some n → n < next ∧ (inode n).synced = true

inductive FileOp (N : Type) : Type → Type
  | mkdirAll : FileOp N Unit
  /-- With `O_CREATE` and `O_EXCL`. -/
  | openFile (name : N) : FileOp N Nat
  | remove (name : N) : FileOp N Unit
  | write (n : Nat) (bytes : List UInt8) : FileOp N Unit
  | sync (n : Nat) : FileOp N Unit
  | close (n : Nat) : FileOp N Unit
  | rename (old new : N) : FileOp N Unit

namespace FileSystem

variable {N : Type}

/-- What is read under a name. -/
def read (s : FileSystem N) (name : N) : Option (List UInt8) :=
  (s.dir name).map fun n ↦ (s.inode n).content

/-- What a crash may leave. -/
structure Crash (s t : FileSystem N) : Prop where
  dir : t.dir = s.dir ∨ t.dir ∈ s.earlier
  inode : ∀ n, (s.inode n).synced = true → (t.inode n).content = (s.inode n).content

variable [DecidableEq N]

/-- A change of the directory. -/
def link (s : FileSystem N) (dir : N → Option Nat) : FileSystem N :=
  { s with dir, earlier := s.dir :: s.earlier }

/-- A new file, with a name. -/
def create (s : FileSystem N) (dir : N → Option Nat) : FileSystem N where
  dir
  earlier := s.dir :: s.earlier
  inode := Function.update s.inode s.next {}
  next := s.next + 1

def modify (s : FileSystem N) (n : Nat) (f : Inode → Inode) : FileSystem N :=
  { s with inode := Function.update s.inode n (f (s.inode n)) }

/-- Serves one request. -/
def serve {β : Type} : FileOp N β → FileSystem N → Except FileError β × FileSystem N
  | .mkdirAll, s => (.ok (), s)
  | .openFile name, s => match s.dir name with
      | some _ => (.error ⟨.exist, "file exists"⟩, s)
      | none => (.ok s.next, s.create (Function.update s.dir name (some s.next)))
  | .remove name, s => match s.dir name with
      | none => (.error ⟨.notExist, "no such file or directory"⟩, s)
      | some _ => (.ok (), s.link (Function.update s.dir name none))
  | .write n bytes, s => (.ok (), s.modify n fun file ↦ ⟨file.content ++ bytes, false⟩)
  | .sync n, s => (.ok (), s.modify n fun file ↦ { file with synced := true })
  | .close _, s => (.ok (), s)
  | .rename old new, s => match s.dir old with
      | none => (.error ⟨.notExist, "no such file or directory"⟩, s)
      | some n => (.ok (), s.link (Function.update (Function.update s.dir old none) new (some n)))

end FileSystem

variable {N : Type} [DecidableEq N]

/-- The file system as a server. -/
def fileServer : Server (FileOp N) FileError (FileSystem N) := ⟨fun op s ↦ s.serve op⟩

abbrev FileM (N : Type) := Prog (FileOp N) FileError

/-! ## Notes -/

/-- What is noted of a program. -/
inductive FileNote
  | opened (n : Nat)
  | wrote (n : Nat) (bytes : List UInt8)
  | synced (n : Nat)
deriving DecidableEq

def watchFile (f : Fate FileError) (β : Type) : FileOp N β → FileSystem N → List FileNote
  | .openFile name, s => match f with
      | .served => if s.dir name = none then [.opened s.next] else []
      | .refused _ | .unanswered _ => []
  | .write n bytes, _ => match f with
      | .refused _ => []
      | .served | .unanswered _ => [.wrote n bytes]
  | .sync n, _ => match f with
      | .refused _ => []
      | .served | .unanswered _ => [.synced n]
  | _, _ => []

/-- A program writes to the file that it has created and to no other, syncs it when its output is
complete, if it has any, and leaves the name `target` alone, but for moving files there. -/
def Publishes (target : N) (out : Option (List UInt8)) (notes : List FileNote) :
    ∀ β : Type, FileOp N β → Prop
  | _, .write n _ => ∃ written : List (List UInt8), notes = .opened n :: written.map (.wrote n)
  | _, .sync n => ∃ written : List (List UInt8),
      notes = .opened n :: written.map (.wrote n) ∧ out = some written.flatten
  | _, .openFile name | _, .remove name | _, .rename name _ => name ≠ target
  | _, _ => True

section Runs

variable {ι : Type} [DecidableEq ι] {α : Type}

abbrev FilePool (ι N α : Type) := Pool ι (FileOp N) FileError α (FileSystem N)

/-- Nobody but the programs uses the files. -/
def nobody : Empty → FileSystem N → FileSystem N := fun x _ ↦ x.elim

/-- A file has been synced. -/
def syncedIn (log : List (ι × FileNote)) (n : Nat) : Bool := log.any fun e ↦ e.2 = .synced n

/-- A file that is moved has been synced. -/
def MovesSynced (s : FileSystem N) (log : List (ι × FileNote)) : ∀ β : Type, FileOp N β → Prop
  | _, .rename old _ => (s.dir old).all (syncedIn log) = true
  | _, _ => True

instance (s : FileSystem N) (log : List (ι × FileNote)) (β : Type) (op : FileOp N β) :
    Decidable (MovesSynced s log β op) := by
  unfold MovesSynced
  split <;> infer_instance

/-- Steps of the programs, with what is noted of them. -/
abbrev fileStep : Recorded (FilePool ι N α) (ι × FileNote) → Event ι FileError Empty →
    Option (Recorded (FilePool ι N α) (ι × FileNote)) :=
  Recorded.step (Pool.step fileServer nobody) (Pool.attend watchFile)

/-- Whatever is moved has been synced. -/
abbrev AllMovesSynced : Recorded (FilePool ι N α) (ι × FileNote) → Event ι FileError Empty → Prop :=
  Overseen fun _ r ↦ MovesSynced r.state.shared r.log

/-! ## The invariant -/

/-- A name stands for what it stood for at the start, or for a file that has been synced. -/
def Sound (start : N → Option Nat) (target : N) (log : List (ι × FileNote))
    (dir : N → Option Nat) : Prop :=
  dir target = start target ∨ ∃ n, dir target = some n ∧ syncedIn log n = true

/-- Files belong to those who have created them, and are complete once they are synced. -/
structure Orderly (s₀ : FileSystem N) (target : N) (out : ι → Option (List UInt8))
    (r : Recorded (FilePool ι N α) (ι × FileNote)) : Prop where
  le : s₀.next ≤ r.state.shared.next
  fresh : ∀ i n, (i, .opened n) ∈ r.log → s₀.next ≤ n ∧ n < r.state.shared.next
  owner : ∀ i j n, (i, .opened n) ∈ r.log → (j, .opened n) ∈ r.log → i = j
  old : ∀ n < s₀.next, r.state.shared.inode n = s₀.inode n
  content : ∀ i n (written : List (List UInt8)),
    notesOf i r.log = .opened n :: written.map (.wrote n) →
      (r.state.shared.inode n).content = written.flatten
  done : ∀ i n, (i, .synced n) ∈ r.log →
    (i, .opened n) ∈ r.log ∧ ∃ bytes, out i = some bytes ∧
      r.state.shared.inode n = ⟨bytes, true⟩
  sound : Sound s₀.dir target r.log r.state.shared.dir ∧
    ∀ dir ∈ r.state.shared.earlier, Sound s₀.dir target r.log dir

section Step

variable {s₀ : FileSystem N} {target : N} {out : ι → Option (List UInt8)}
  {r r' : Recorded (FilePool ι N α) (ι × FileNote)} {i : ι} {f : Fate FileError}

omit [DecidableEq N] [DecidableEq ι] in
theorem syncedIn_iff {log : List (ι × FileNote)} {n : Nat} :
    syncedIn log n = true ↔ ∃ i, (i, .synced n) ∈ log := by
  simp [syncedIn]

omit [DecidableEq N] [DecidableEq ι] in
theorem Sound.append {start dir : N → Option Nat} {log : List (ι × FileNote)}
    (h : Sound start target log dir) (new : List (ι × FileNote)) :
    Sound start target (log ++ new) dir := by
  rcases h with h | ⟨n, hn, hsynced⟩
  · exact .inl h
  · obtain ⟨i, hi⟩ := syncedIn_iff.mp hsynced
    exact .inr ⟨n, hn, syncedIn_iff.mpr ⟨i, List.mem_append_left _ hi⟩⟩

omit [DecidableEq N] [DecidableEq ι] in
theorem Sound.congr {start dir dir' : N → Option Nat} {log : List (ι × FileNote)}
    (h : Sound start target log dir) (hdir : dir' target = dir target) :
    Sound start target log dir' := by
  unfold Sound
  rw [hdir]
  exact h

omit [DecidableEq N] in
/-- Nothing happens. -/
theorem Orderly.same (h : Orderly s₀ target out r) (hshared : r'.state.shared = r.state.shared)
    (hlog : r'.log = r.log) : Orderly s₀ target out r' where
  le := hshared ▸ h.le
  fresh := hshared ▸ hlog ▸ h.fresh
  owner := hlog ▸ h.owner
  old := hshared ▸ h.old
  content := hshared ▸ hlog ▸ h.content
  done := hshared ▸ hlog ▸ h.done
  sound := hshared ▸ hlog ▸ h.sound

omit [DecidableEq N] in
/-- The directory changes. -/
theorem Orderly.link (h : Orderly s₀ target out r) {dir : N → Option Nat}
    (hdir : Sound s₀.dir target r.log dir) (hshared : r'.state.shared = r.state.shared.link dir)
    (hlog : r'.log = r.log) : Orderly s₀ target out r' where
  le := hshared ▸ h.le
  fresh := hshared ▸ hlog ▸ h.fresh
  owner := hlog ▸ h.owner
  old := hshared ▸ h.old
  content := hshared ▸ hlog ▸ h.content
  done := hshared ▸ hlog ▸ h.done
  sound := by
    rw [hshared, hlog]
    exact ⟨hdir, List.forall_mem_cons.mpr h.sound⟩

omit [DecidableEq N] in
/-- What is noted of a program that writes to a file that it has created. -/
theorem Orderly.opened (h : Orderly s₀ target out r) {n : Nat} {notes : List FileNote}
    (hnotes : notesOf i r.log = .opened n :: notes) :
    (i, .opened n) ∈ r.log ∧ s₀.next ≤ n ∧ n < r.state.shared.next := by
  have hmem : (i, FileNote.opened n) ∈ r.log := mem_notesOf.mp (hnotes ▸ List.mem_cons_self)
  exact ⟨hmem, h.fresh i n hmem⟩

omit [DecidableEq N] in
/-- A file is created. -/
theorem Orderly.create (h : Orderly s₀ target out r) {dir : N → Option Nat}
    (hdir : dir target = r.state.shared.dir target)
    (hshared : r'.state.shared = r.state.shared.create dir)
    {new : List FileNote} (hnew : new = [] ∨ new = [.opened r.state.shared.next])
    (hlog : r'.log = r.log ++ new.map (i, ·)) : Orderly s₀ target out r' := by
  have hopened : ∀ j n, (j, .opened n) ∈ r'.log →
      (j, .opened n) ∈ r.log ∨ j = i ∧ n = r.state.shared.next := by
    intro j n hmem
    rw [hlog] at hmem
    rcases hnew with rfl | rfl
    · exact .inl (by simpa using hmem)
    · simpa using hmem
  have hsynced : ∀ j n, (j, .synced n) ∈ r'.log → (j, .synced n) ∈ r.log := by
    intro j n hmem
    rw [hlog] at hmem
    rcases hnew with rfl | rfl <;> simpa using hmem
  have hinode : ∀ n, n < r.state.shared.next →
      r'.state.shared.inode n = r.state.shared.inode n := by
    intro n hn
    rw [hshared]
    exact Function.update_of_ne hn.ne _ _
  have hnext : r'.state.shared.next = r.state.shared.next + 1 := congrArg FileSystem.next hshared
  refine ⟨?_, ?_, ?_, ?_, ?_, ?_, ?_⟩
  · rw [hnext]
    exact h.le.trans (Nat.le_succ _)
  · intro j n hmem
    rw [hnext]
    rcases hopened j n hmem with hmem | ⟨rfl, rfl⟩
    · exact ⟨(h.fresh j n hmem).1, (h.fresh j n hmem).2.trans (Nat.lt_succ_self _)⟩
    · exact ⟨h.le, Nat.lt_succ_self _⟩
  · intro j j' n hmem hmem'
    rcases hopened j n hmem with hmem | ⟨rfl, rfl⟩ <;>
      rcases hopened j' _ hmem' with hmem' | ⟨rfl, hn⟩
    · exact h.owner j j' n hmem hmem'
    · exact absurd hn (h.fresh j n hmem).2.ne
    · exact absurd rfl (h.fresh j' _ hmem').2.ne
    · rfl
  · intro n hn
    rw [hinode n (hn.trans_le h.le)]
    exact h.old n hn
  · intro j n written hnotes
    by_cases hj : j = i ∧ new = [.opened r.state.shared.next]
    · obtain ⟨rfl, rfl⟩ := hj
      rw [hlog, notesOf_append_self] at hnotes
      cases hbefore : notesOf j r.log with
      | nil =>
          rw [hbefore] at hnotes
          obtain ⟨hn, hwritten⟩ := List.cons.inj hnotes
          obtain rfl := FileNote.opened.inj hn
          obtain rfl := List.map_eq_nil_iff.mp hwritten.symm
          have hinode : r'.state.shared.inode r.state.shared.next = {} := by
            rw [hshared]
            exact Function.update_self ..
          rw [hinode]
          rfl
      | cons x notes =>
          -- it has noted something before, and then it cannot end with opening a file
          rw [hbefore] at hnotes
          have hmem : FileNote.opened r.state.shared.next ∈ written.map (.wrote n) := by
            rw [← (List.cons.inj hnotes).2]
            exact List.mem_append_right _ List.mem_cons_self
          obtain ⟨_, -, hne⟩ := List.mem_map.mp hmem
          cases hne
    · have hsame : notesOf j r'.log = notesOf j r.log := by
        rw [hlog]
        by_cases hji : j = i
        · obtain rfl := hnew.resolve_right fun hne ↦ hj ⟨hji, hne⟩
          rw [List.map_nil, List.append_nil]
        · exact notesOf_append_of_ne hji _ _
      rw [hsame] at hnotes
      rw [hinode n (h.opened hnotes).2.2]
      exact h.content j n written hnotes
  · intro j n hmem
    obtain ⟨hmem, hn⟩ := h.done j n (hsynced j n hmem)
    rw [hinode n (h.fresh j n hmem).2]
    exact ⟨hlog ▸ List.mem_append_left _ hmem, hn⟩
  · have hold := h.sound.1.append (new.map (i, ·))
    rw [hshared, hlog]
    refine ⟨?_, List.forall_mem_cons.mpr ⟨hold, fun dir' hdir' ↦ (h.sound.2 dir' hdir').append _⟩⟩
    exact hold.congr hdir

omit [DecidableEq N] in
/-- A program uses the file that it has created. -/
theorem Orderly.use (h : Orderly s₀ target out r) {n : Nat} {written : List (List UInt8)}
    (hnotes : notesOf i r.log = .opened n :: written.map (.wrote n)) {g : Inode → Inode}
    (hshared : r'.state.shared = r.state.shared.modify n g) {note : FileNote}
    (hlog : r'.log = r.log ++ [(i, note)]) (hnote : ∀ m, note ≠ .opened m)
    (hcontent : ∀ m (written' : List (List UInt8)),
      notesOf i r'.log = .opened m :: written'.map (.wrote m) →
        m = n ∧ (g (r.state.shared.inode n)).content = written'.flatten)
    (hdone : (note = .synced n ∧ ∃ bytes, out i = some bytes ∧
      g (r.state.shared.inode n) = ⟨bytes, true⟩) ∨ ∀ m, note ≠ .synced m) :
    Orderly s₀ target out r' := by
  obtain ⟨hopened, hn₀, hn⟩ := h.opened hnotes
  have hmem : ∀ j m, (j, .opened m) ∈ r'.log → (j, .opened m) ∈ r.log := by
    intro j m hmem
    rw [hlog] at hmem
    rcases List.mem_append.mp hmem with hmem | hmem
    · exact hmem
    · exact absurd (congrArg Prod.snd (List.mem_singleton.mp hmem)).symm (hnote m)
  have hinode : ∀ m, m ≠ n → r'.state.shared.inode m = r.state.shared.inode m := by
    intro m hm
    rw [hshared]
    exact Function.update_of_ne hm _ _
  have hself : r'.state.shared.inode n = g (r.state.shared.inode n) := by
    rw [hshared]
    exact Function.update_self ..
  have hnext : r'.state.shared.next = r.state.shared.next := by
    rw [hshared]
    rfl
  -- the file of another program
  have hother : ∀ j m, (j, .opened m) ∈ r.log → j ≠ i → m ≠ n := by
    rintro j _ hmem hj rfl
    exact hj (h.owner j i _ hmem hopened)
  refine ⟨?_, ?_, ?_, ?_, ?_, ?_, ?_⟩
  · rw [hnext]
    exact h.le
  · intro j m hjm
    rw [hnext]
    exact h.fresh j m (hmem j m hjm)
  · intro j j' m hjm hjm'
    exact h.owner j j' m (hmem j m hjm) (hmem j' m hjm')
  · intro m hm
    rw [hinode m (hm.trans_le hn₀).ne]
    exact h.old m hm
  · intro j m written' hnotes'
    by_cases hj : j = i
    · subst hj
      obtain ⟨rfl, hcontent⟩ := hcontent m written' hnotes'
      rw [hself]
      exact hcontent
    · rw [hlog, notesOf_concat_of_ne hj] at hnotes'
      rw [hinode m (hother j m (h.opened hnotes').1 hj)]
      exact h.content j m written' hnotes'
  · intro j m hjm
    rw [hlog] at hjm
    rcases List.mem_append.mp hjm with hbefore | hlast
    · obtain ⟨hjopened, hdone⟩ := h.done j m hbefore
      refine ⟨hlog ▸ List.mem_append_left _ hjopened, ?_⟩
      have hm : m ≠ n := by
        rintro rfl
        -- a file that has been synced is not used any more
        obtain rfl := h.owner j i _ hjopened hopened
        have hsynced : FileNote.synced m ∈ notesOf j r.log := mem_notesOf.mpr hbefore
        rw [hnotes] at hsynced
        simp at hsynced
      rw [hinode m hm]
      exact hdone
    · obtain ⟨rfl, hsynced⟩ := Prod.mk.inj (List.mem_singleton.mp hlast)
      obtain ⟨rfl, bytes, hbytes, hg⟩ := hdone.resolve_right fun hne ↦ hne m hsynced.symm
      obtain rfl := FileNote.synced.inj hsynced
      exact ⟨hlog ▸ List.mem_append_left _ hopened, bytes, hbytes, hself.trans hg⟩
  · rw [hshared, hlog]
    exact ⟨h.sound.1.append _, fun dir hdir ↦ (h.sound.2 dir hdir).append _⟩

omit [DecidableEq N] in
/-- A program writes to its file. -/
theorem Orderly.write (h : Orderly s₀ target out r) {n : Nat} {written : List (List UInt8)}
    (hnotes : notesOf i r.log = .opened n :: written.map (.wrote n)) {bytes : List UInt8}
    (hshared : r'.state.shared = r.state.shared.modify n fun file ↦ ⟨file.content ++ bytes, false⟩)
    (hlog : r'.log = r.log ++ [(i, .wrote n bytes)]) : Orderly s₀ target out r' := by
  refine h.use hnotes hshared hlog nofun (fun m written' hnotes' ↦ ?_) (.inr nofun)
  rw [hlog, notesOf_concat_self, hnotes, List.cons_append] at hnotes'
  obtain ⟨hm, hwritten⟩ := List.cons.inj hnotes'
  obtain rfl := FileNote.opened.inj hm
  have hinj : Function.Injective (FileNote.wrote n) := fun _ _ h ↦ (FileNote.wrote.inj h).2
  have hsnoc : (written ++ [bytes]).map (FileNote.wrote n) = written'.map (.wrote n) := by
    rw [List.map_append]
    exact hwritten
  obtain rfl := List.map_injective_iff.mpr hinj hsnoc
  refine ⟨rfl, ?_⟩
  rw [h.content i n written hnotes, List.flatten_append, List.flatten_singleton]

omit [DecidableEq N] in
/-- A program syncs its file. -/
theorem Orderly.sync (h : Orderly s₀ target out r) {n : Nat} {written : List (List UInt8)}
    (hnotes : notesOf i r.log = .opened n :: written.map (.wrote n))
    (hout : out i = some written.flatten)
    (hshared : r'.state.shared = r.state.shared.modify n fun file ↦ { file with synced := true })
    (hlog : r'.log = r.log ++ [(i, .synced n)]) : Orderly s₀ target out r' := by
  refine h.use hnotes hshared hlog nofun (fun m written' hnotes' ↦ ?_) (.inl ⟨rfl, _, hout, ?_⟩)
  · rw [hlog, notesOf_concat_self, hnotes, List.cons_append] at hnotes'
    have hmem : FileNote.synced n ∈ written'.map (.wrote m) := by
      rw [← (List.cons.inj hnotes').2]
      exact List.mem_append_right _ List.mem_cons_self
    simp at hmem
  · rw [← h.content i n written hnotes]

/-- Every step keeps the files in order. -/
theorem Orderly.step {l : Event ι FileError Empty} (h : Orderly s₀ target out r)
    (hheeds : ∀ i, Heeds fileServer watchFile (Publishes target (out i)) (r.state.thread i)
      (notesOf i r.log)) (hguard : AllMovesSynced r l) (hs : fileStep r l = some r') :
    Orderly s₀ target out r' := by
  cases l with
  | env x => exact x.elim
  | run i f =>
      obtain ⟨β, op, k, hi, hstate, hlog⟩ := Pool.attended_run hs
      have hop := hheeds i
      rw [hi] at hop
      replace hop := hop.1
      have hshared := congrArg Pool.shared hstate
      rw [Pool.resume_shared] at hshared
      rw [AllMovesSynced, Overseen, hi] at hguard
      by_cases hrefused : ∃ e, f = .refused e
      · obtain ⟨e, rfl⟩ := hrefused
        refine h.same hshared (hlog.trans ?_)
        cases op <;> exact List.append_nil _
      have heffect : ∀ e, f ≠ .refused e := fun e he ↦ hrefused ⟨e, he⟩
      rw [Server.after_of_ne_refused heffect] at hshared
      have hguard := hguard heffect
      rw [atRequest_call] at hguard
      cases op with
      | mkdirAll | close => exact h.same hshared (hlog.trans (List.append_nil _))
      | openFile name =>
          cases hdir : r.state.shared.dir name with
          | some n =>
              refine h.same (hshared.trans ?_) (hlog.trans ?_)
              · simp only [fileServer, FileSystem.serve, hdir]
              · cases f <;> simp [watchFile, hdir]
          | none =>
              have hdirs : Function.update r.state.shared.dir name
                  (some r.state.shared.next) target = r.state.shared.dir target :=
                Function.update_of_ne (Ne.symm hop) _ _
              refine h.create hdirs (hshared.trans ?_) ?_ hlog
              · simp only [fileServer, FileSystem.serve, hdir]
              · cases f <;> simp [watchFile, hdir]
      | remove name =>
          have hlog : r'.log = r.log := hlog.trans (List.append_nil _)
          cases hdir : r.state.shared.dir name with
          | none =>
              refine h.same (hshared.trans ?_) hlog
              simp only [fileServer, FileSystem.serve, hdir]
          | some n =>
              have hdirs : Function.update r.state.shared.dir name none target =
                  r.state.shared.dir target := Function.update_of_ne (Ne.symm hop) _ _
              refine h.link (h.sound.1.congr hdirs) (hshared.trans ?_) hlog
              simp only [fileServer, FileSystem.serve, hdir]
      | rename old new =>
          have hlog : r'.log = r.log := hlog.trans (List.append_nil _)
          cases hdir : r.state.shared.dir old with
          | none =>
              refine h.same (hshared.trans ?_) hlog
              simp only [fileServer, FileSystem.serve, hdir]
          | some n =>
              have hsynced : syncedIn r.log n = true := by
                have hmoves : (r.state.shared.dir old).all (syncedIn r.log) = true := hguard
                rwa [hdir] at hmoves
              have hsound : Sound s₀.dir target r.log (Function.update
                  (Function.update r.state.shared.dir old none) new (some n)) := by
                by_cases hnew : target = new
                · subst hnew
                  exact .inr ⟨n, Function.update_self .., hsynced⟩
                · refine h.sound.1.congr ((Function.update_of_ne hnew _ _).trans ?_)
                  exact Function.update_of_ne (Ne.symm hop) _ _
              refine h.link hsound (hshared.trans ?_) hlog
              simp only [fileServer, FileSystem.serve, hdir]
      | write n bytes =>
          obtain ⟨written, hnotes⟩ := hop
          refine h.write hnotes hshared (hlog.trans ?_)
          cases f with
          | refused e => exact absurd rfl (heffect e)
          | served | unanswered => rfl
      | sync n =>
          obtain ⟨written, hnotes, hout⟩ := hop
          refine h.sync hnotes hout hshared (hlog.trans ?_)
          cases f with
          | refused e => exact absurd rfl (heffect e)
          | served | unanswered => rfl

end Step

/-- The files are in order in every run. -/
theorem Orderly.reach {disk : Disk N} {target : N} {out : ι → Option (List UInt8)}
    {progs : ι → Prog (FileOp N) FileError α}
    (hprogs : ∀ i, Heeds fileServer watchFile (Publishes target (out i)) (progs i) [])
    {r : Recorded (FilePool ι N α) (ι × FileNote)}
    (h : Reach fileStep AllMovesSynced ⟨⟨disk.toFileSystem, progs⟩, []⟩ r) :
    Orderly disk.toFileSystem target out r := by
  have hheeds : ∀ {r}, Reach fileStep AllMovesSynced ⟨⟨disk.toFileSystem, progs⟩, []⟩ r →
      ∀ i, Heeds fileServer watchFile (Publishes target (out i)) (r.state.thread i)
        (notesOf i r.log) := fun h ↦ Heeds.reach hprogs h
  induction h with
  | start =>
      constructor
      case le => exact le_rfl
      case old => exact fun _ _ ↦ rfl
      case sound =>
        refine ⟨.inl rfl, fun dir hdir ↦ ?_⟩
        rw [disk.onDisk] at hdir
        cases hdir
      all_goals
        intros
        contradiction
  | next l h hg hs ih => exact ih.step (hheeds h) hg hs

/-- Where only files that have been synced are moved, whatever is read under the name that they
are moved to, after a crash or without one, is what was there at the start or the whole output of
one of the programs. -/
theorem Disk.publishes {disk : Disk N} {target : N} {out : ι → Option (List UInt8)}
    {progs : ι → Prog (FileOp N) FileError α}
    (hprogs : ∀ i, Heeds fileServer watchFile (Publishes target (out i)) (progs i) [])
    {r : Recorded (FilePool ι N α) (ι × FileNote)}
    (h : Reach fileStep AllMovesSynced ⟨⟨disk.toFileSystem, progs⟩, []⟩ r) {t : FileSystem N}
    (ht : t = r.state.shared ∨ r.state.shared.Crash t) :
    t.read target = disk.read target ∨ ∃ i bytes, out i = some bytes ∧
      t.read target = some bytes := by
  have horderly := Orderly.reach hprogs h
  have hsound : Sound disk.dir target r.log t.dir := by
    rcases ht with rfl | hcrash
    · exact horderly.sound.1
    · rcases hcrash.dir with hdir | hdir
      · rw [hdir]
        exact horderly.sound.1
      · exact horderly.sound.2 _ hdir
  have hcontent : ∀ n, (r.state.shared.inode n).synced = true →
      (t.inode n).content = (r.state.shared.inode n).content := by
    rcases ht with rfl | hcrash
    · exact fun _ _ ↦ rfl
    · exact hcrash.inode
  rcases hsound with hdir | ⟨n, hdir, hsynced⟩
  · left
    rw [FileSystem.read, FileSystem.read, hdir]
    cases hstart : disk.dir target with
    | none => rfl
    | some n =>
        obtain ⟨hn, hon⟩ := disk.linked target n hstart
        have hold := horderly.old n hn
        rw [Option.map_some, Option.map_some, hcontent n (by rw [hold]; exact hon), hold]
  · right
    obtain ⟨i, hi⟩ := syncedIn_iff.mp hsynced
    obtain ⟨-, bytes, hbytes, hdone⟩ := horderly.done i n hi
    refine ⟨i, bytes, hbytes, ?_⟩
    rw [FileSystem.read, hdir, Option.map_some, hcontent n (by rw [hdone]), hdone]

end Runs

end Files
