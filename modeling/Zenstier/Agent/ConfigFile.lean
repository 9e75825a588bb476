import Zenstier.Files.Inodes

/-!
# Saving the configuration

`Save` of `config.go`: it writes to a temporary file, syncs it, and moves it to its place.  All
calls use the same temporary name, and a call that finds a file there removes it.
-/

namespace Zenstier.Agent

open Concurrent Files

/-- The configuration as it is marshalled, in the portions in which it gets written. -/
abbrev Encoded := Except String (List (List UInt8))

/-- Opens the temporary file; a leftover of a crashed run must not block enrollment. -/
def openTemp (tmp : String) : FileM String Nat :=
  Prog.tryCatch (.perform (.openFile tmp)) fun err ↦
    if err.kind = .exist then do
      let _ ← (.perform (.remove tmp) : FileM String Unit).attempt
      Prog.tryCatch (.perform (.openFile tmp)) fun err ↦ throw (err.wrap "open temp config")
    else throw (err.wrap "open temp config")

/-- What is done about a file that could not be written. -/
def discard (tmp : String) (n : Nat) (err : FileError) : FileM String Unit := do
  let _ ← (.perform (.close n) : FileM String Unit).attempt
  let _ ← (.perform (.remove tmp) : FileM String Unit).attempt
  throw err

/-- Writes the config atomically. -/
def save (path : String) (encoded : Encoded) : FileM String Unit := do
  Prog.tryCatch (.perform .mkdirAll) fun err ↦ throw (err.wrap "create config dir")
  match encoded with
  | .error text => throw ⟨.other, "encode config: " ++ text⟩
  | .ok portions => do
      let tmp := path ++ ".tmp"
      let f ← openTemp tmp
      Prog.tryCatch (portions.forM fun bytes ↦ .perform (.write f bytes)) fun err ↦
        discard tmp f (err.wrap "write config")
      Prog.tryCatch (.perform (.sync f)) fun err ↦ discard tmp f (err.wrap "sync config")
      Prog.tryCatch (.perform (.close f)) fun err ↦ do
        let _ ← (.perform (.remove tmp) : FileM String Unit).attempt
        throw err
      .perform (.rename tmp path)

/-- The whole encoding, if there is one. -/
def Encoded.bytes (encoded : Encoded) : Option (List UInt8) :=
  encoded.toOption.map List.flatten

theorem temp_ne (path : String) : path ++ ".tmp" ≠ path := by
  intro h
  have hlength := congrArg String.length h
  have htmp : ".tmp".length = 4 := rfl
  rw [String.length_append, htmp] at hlength
  omega

/-! ## A call keeps to its own file -/

section Save

variable {path tmp : String} {s : FileSystem String} {f : Fate FileError}

/-- A file that has been opened is noted. -/
theorem watchFile_opened {n : Nat} (h : (fileServer.serve (.openFile tmp) s).1 = .ok n) :
    watchFile .served Nat (.openFile tmp) s = [.opened n] := by
  cases hdir : s.dir tmp with
  | none =>
      simp only [fileServer, FileSystem.serve, hdir, Except.ok.injEq] at h
      simp [watchFile, hdir, h]
  | some m => simp [fileServer, FileSystem.serve, hdir] at h

/-- One that has not been is not. -/
theorem watchFile_notOpened {e : FileError} (h : fileServer.reply f (.openFile tmp) s = .error e) :
    watchFile f Nat (.openFile tmp) s = [] := by
  cases f with
  | refused e => rfl
  | unanswered e => rfl
  | served =>
      cases hdir : s.dir tmp with
      | none => simp [fileServer, FileSystem.serve, hdir] at h
      | some m => simp [watchFile, hdir]

variable {out : Option (List UInt8)} {n : List FileNote}

/-- A call gives up. -/
theorem discard_heeds (htmp : tmp ≠ path) (m : Nat) (err : FileError)
    (k : Unit → FileM String Unit) :
    Heeds fileServer watchFile (Publishes path out) (discard tmp m err >>= k) n := by
  rw [discard, Prog.bind_assoc]
  refine .attempt trivial fun _ _ ↦ ?_
  rw [Prog.bind_assoc]
  exact .attempt htmp fun _ _ ↦ trivial

/-- A call that has opened its file. -/
theorem openTemp_heeds (htmp : tmp ≠ path) {k : Nat → FileM String Unit}
    (hk : ∀ m, Heeds fileServer watchFile (Publishes path out) (k m) [.opened m]) :
    Heeds fileServer watchFile (Publishes path out) (openTemp tmp >>= k) [] := by
  refine .handled htmp (fun s m hm ↦ ?_) fun s f err herr ↦ ?_
  · rw [watchFile_opened hm]
    exact hk m
  rw [watchFile_notOpened herr]
  split
  · rw [Prog.bind_assoc]
    refine .attempt htmp fun _ _ ↦ ?_
    refine .handled htmp (fun s m hm ↦ ?_) fun s f err herr ↦ trivial
    rw [watchFile_opened hm]
    exact hk m
  · trivial

/-- A call that writes its portions. -/
theorem writes_heed {m : Nat} (portions written : List (List UInt8))
    {h : FileError → FileM String Unit} {k : Unit → FileM String Unit}
    (hh : ∀ err n, Heeds fileServer watchFile (Publishes path out) (h err >>= k) n)
    (hk : Heeds fileServer watchFile (Publishes path out) (k ())
      (.opened m :: (written ++ portions).map (.wrote m))) :
    Heeds fileServer watchFile (Publishes path out)
      (Prog.tryCatch (portions.forM fun bytes ↦ .perform (.write m bytes)) h >>= k)
      (.opened m :: written.map (.wrote m)) := by
  induction portions generalizing written with
  | nil => rwa [List.append_nil] at hk
  | cons bytes portions ih =>
      refine ⟨⟨written, rfl⟩, fun s f ↦ ?_⟩
      cases f with
      | refused e => exact hh e _
      | unanswered e => exact hh e _
      | served =>
          have hsnoc : FileNote.opened m :: written.map (.wrote m) ++ [.wrote m bytes] =
              .opened m :: (written ++ [bytes]).map (.wrote m) := by simp
          show Heeds fileServer watchFile (Publishes path out) _
            (.opened m :: written.map (.wrote m) ++ [.wrote m bytes])
          rw [hsnoc]
          refine ih (written ++ [bytes]) ?_
          rwa [List.append_assoc, List.singleton_append]

/-- A call of `Save` writes to its own temporary file, and syncs it when it is complete. -/
theorem save_heeds (path : String) (encoded : Encoded) :
    Heeds fileServer watchFile (Publishes path encoded.bytes) (save path encoded) [] := by
  refine .handled trivial (fun _ _ _ ↦ ?_) fun _ _ _ _ ↦ trivial
  cases encoded with
  | error text => trivial
  | ok portions =>
      refine openTemp_heeds (temp_ne path) fun m ↦ ?_
      refine writes_heed portions [] (fun err n ↦ discard_heeds (temp_ne path) m _ _) ?_
      refine .handled ⟨portions, rfl, rfl⟩ (fun _ _ _ ↦ ?_)
        fun _ _ err _ ↦ discard_heeds (temp_ne path) m _ _
      refine .handled trivial (fun _ _ _ ↦ ?_) fun _ _ err _ ↦ ?_
      · exact .of_only ((Prog.only_perform _).mpr fun _ ↦ temp_ne path)
      · rw [Prog.bind_assoc]
        exact .attempt (temp_ne path) fun _ _ ↦ trivial

end Save

/-- In every interleaving of calls of `Save` in which only files that have been synced are moved
to the path, what is there after any step, and after a crash, is the whole encoding of one of the
configurations, or what was there before. -/
theorem save_keepsConfig {ι : Type} [DecidableEq ι] (disk : Disk String) (path : String)
    (encoded : ι → Encoded) {r : Recorded (FilePool ι String Unit) (ι × FileNote)}
    (h : Reach fileStep AllMovesSynced
      ⟨⟨disk.toFileSystem, fun i ↦ save path (encoded i)⟩, []⟩ r) {t : FileSystem String}
    (ht : t = r.state.shared ∨ r.state.shared.Crash t) :
    t.read path = disk.read path ∨ ∃ i bytes, (encoded i).bytes = some bytes ∧
      t.read path = some bytes :=
  Disk.publishes (fun i ↦ save_heeds path (encoded i)) h ht

/-- A disk with a configuration. -/
def configured : Disk String where
  dir := fun name ↦ if name = "config.yaml" then some 0 else none
  earlier := []
  inode := fun _ ↦ ⟨[0], true⟩
  next := 1
  onDisk := rfl
  linked := fun name n h ↦ by
    have hn : 0 = n := (Option.ite_none_right_eq_some.mp h).2 |> Option.some.inj
    exact ⟨by omega, rfl⟩

/-- Two configurations. -/
def twoEncodings (i : Bool) : Encoded := .ok [[if i then 2 else 1]]

/-- A call for each. -/
def twoSaves : Recorded (FilePool Bool String Unit) (Bool × FileNote) :=
  ⟨⟨configured.toFileSystem, fun i ↦ save "config.yaml" (twoEncodings i)⟩, []⟩

/-- The second call removes the temporary file of the first and opens its own, which the first
moves to its place before anything has been written to it. -/
theorem save_losesConfig :
    ¬ ∀ (disk : Disk String) (path : String) (encoded : Bool → Encoded)
      (r : Recorded (FilePool Bool String Unit) (Bool × FileNote)),
      Reach fileStep (fun _ _ ↦ True)
        ⟨⟨disk.toFileSystem, fun i ↦ save path (encoded i)⟩, []⟩ r →
      r.state.shared.read path = disk.read path ∨ ∃ i bytes, (encoded i).bytes = some bytes ∧
        r.state.shared.read path = some bytes := by
  obtain ⟨r, hr, hread⟩ : ∃ r, Reach fileStep (fun _ _ ↦ True) twoSaves r ∧
      r.state.shared.read "config.yaml" = some [] :=
    Reach.exists_of_exec [.run false .served, .run false .served, .run true .served,
      .run true .served, .run true .served, .run true .served, .run false .served,
      .run false .served, .run false .served, .run false .served] (by decide +kernel)
  intro h
  rcases h configured "config.yaml" twoEncodings r hr with
    hkept | ⟨i, bytes, hbytes, hsaved⟩
  · rw [hread] at hkept
    cases hkept
  · obtain rfl := Option.some.inj (hread.symm.trans hsaved)
    cases i <;> cases hbytes

/-- One call after the other. -/
theorem save_keepsConfig_inTurn :
    ∃ r : Recorded (FilePool Bool String Unit) (Bool × FileNote),
      r.state.shared.read "config.yaml" = some [2] ∧
      (r.state.shared.read "config.yaml" = configured.read "config.yaml" ∨
        ∃ (i : Bool) (bytes : List UInt8),
          (twoEncodings i).bytes = some bytes ∧
            r.state.shared.read "config.yaml" = some bytes) := by
  obtain ⟨r, hr, hread⟩ : ∃ r, Reach fileStep AllMovesSynced twoSaves r ∧
      r.state.shared.read "config.yaml" = some [2] :=
    Reach.exists_of_exec [.run false .served, .run false .served, .run false .served,
      .run false .served, .run false .served, .run false .served, .run true .served,
      .run true .served, .run true .served, .run true .served, .run true .served,
      .run true .served] (by decide +kernel)
  exact ⟨r, hread, save_keepsConfig configured "config.yaml" twoEncodings hr (.inl rfl)⟩

end Zenstier.Agent
