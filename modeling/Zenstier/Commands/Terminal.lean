import Zenstier.Concurrent.Pool
import Zenstier.Worker.Handlers
import Zenstier.Worker.Reap

/-!
# The terminal status of a command

Four writers share the status of a command.  `handleResult` stores the terminal status the
agent reports; a late `accepted` cannot replace it, since that update is conditional.  The
other two are not: `dispatchCommand` marks the whole batch dispatched after publishing, by
when a fast agent may have answered, and `reap` expires what it has read as overdue some
requests ago.

Either overwrites from stale knowledge: the dispatcher's dates from its transaction, the
reaper's from its query.  A call *is about to overwrite* if it can come to such an update
without refreshing that knowledge.  If no call is when a result is stored, none will be
later, because knowledge gained after that includes the result.
-/

namespace Zenstier

open Store Concurrent Prog

/-- A call of the web process or the worker. -/
inductive CommandCall
  | dispatch (batchId userId teamId : String) (input : DispatchCommandInput)
  | result (deviceId : String) (payload : Option ResultPayload)
  | reap

def CommandCall.prog (sha1 : List UInt8 → List UInt8) : CommandCall → CommandM Unit
  | .dispatch batchId userId teamId input => do
      let _ ← dispatchCommand sha1 batchId userId teamId input
  | .result deviceId payload => handleResult deviceId payload
  | .reap => Zenstier.reap

/-- A status that ends a command. -/
def IsTerminal (status : CommandStatus) : Prop :=
  status ∈ [.succeeded, .failed, .timeout, .canceled]

instance (status : CommandStatus) : Decidable (IsTerminal status) :=
  inferInstanceAs (Decidable (_ ∈ _))

/-- The status of a command. -/
def Fleet.status? (s : Fleet) (cmd : String) : Option CommandStatus :=
  (s.commands.find? cmd).map (·.status)

namespace Terminal

/-- The request stores a result of the command that satisfies `P`. -/
def Stores (cmd : String) (P : StoredResult → Prop) : ∀ β : Type, CommandOp β → Prop
  | _, .storeResult id r => id = cmd ∧ P r
  | _, _ => False

/-- The request replaces the terminal status of a command of a batch without looking. -/
def Overwrites (batch : Option String) (cmd : String) (status : CommandStatus) :
    ∀ β : Type, CommandOp β → Prop
  | _, .markDispatched b _ => batch = some b
  | _, .expire id _ _ => id = cmd ∧ status ≠ .timeout
  | _, _ => False

/-- The request gains the knowledge that such an update rests on. -/
def Refreshes : ∀ β : Type, CommandOp β → Prop
  | _, .insertBatch .. | _, .findOverdue _ => True
  | _, _ => False

/-- The call can come to overwriting the status without refreshing its knowledge. -/
def AboutToOverwrite (batch : Option String) (cmd : String) (status : CommandStatus)
    (p : CommandM Unit) : Prop :=
  Ahead Refreshes (AtRequest (Overwrites batch cmd status)) p

variable {batch : Option String} {cmd : String} {status : CommandStatus}

@[simp] theorem aboutToOverwrite_call {β : Type} (op : CommandOp β)
    (k : Except Err β → CommandM Unit) :
    AboutToOverwrite batch cmd status (.call op k) ↔ Overwrites batch cmd status β op ∨
      (¬ Refreshes β op ∧ ∃ r, AboutToOverwrite batch cmd status (k r)) :=
  ahead_call ..

theorem not_aboutToOverwrite {P : ∀ β : Type, CommandOp β → Prop} {p : CommandM Unit}
    (hp : Only P p) (hP : ∀ β (op : CommandOp β), P β op → ¬ Overwrites batch cmd status β op) :
    ¬ AboutToOverwrite batch cmd status p := hp.not_ahead hP

/-! ## What the calls do -/

/-- Knowledge that tells the truth about the command keeps a call from overwriting it: an
overdue list without the command, and a transaction that failed or inserted another
batch. -/
def Disciplined (cmd : String) :
    ∀ β : Type, CommandOp β → (Except Err β → CommandM Unit) → Prop
  | _, .findOverdue _, k => ∀ r, (∀ l, r = .ok l → ∀ o ∈ l, o.id ≠ cmd) →
      ∀ batch status, ¬ AboutToOverwrite batch cmd status (k r)
  | _, .insertBatch b .., k => ∀ r batch, (∀ u, r = .ok u → batch ≠ some b) →
      ∀ status, ¬ AboutToOverwrite batch cmd status (k r)
  | _, _, _ => True

theorem disciplined_of_not_refreshes {β : Type} {op : CommandOp β}
    (k : Except Err β → CommandM Unit) (h : ¬ Refreshes β op) : Disciplined cmd β op k := by
  cases op <;> first | exact absurd trivial h | trivial

/-- The requests of a dispatch once its batch is in. -/
def Publishes (batchId : String) : ∀ β : Type, CommandOp β → Prop
  | _, .publishCommand .. | _, .now => True
  | _, .markDispatched b _ => b = batchId
  | _, _ => False

/-- Every request of the program before it gains knowledge is one of these. -/
def Prepares : ∀ β : Type, CommandOp β → Prop
  | _, .now | _, .findTargets .. | _, .evalRateLimit .. | _, .createAuditLog _ => True
  | _, _ => False

section Dispatch

variable {sha1 : List UInt8 → List UInt8} {batchId userId teamId : String}
  {input : DispatchCommandInput}

theorem publishBatch_only (issuedAt : Int) (finalTargets : List Target) :
    Only (Publishes batchId) (publishBatch sha1 batchId userId input issuedAt finalTargets) := by
  unfold publishBatch
  cases broadcastGroup input with
  | some groupId => exact Only.await trivial fun _ ↦ trivial
  | none =>
      refine Only.awaitAll fun p hp ↦ ?_
      obtain ⟨t, -, rfl⟩ := List.mem_map.mp hp
      exact Only.await trivial fun _ ↦ trivial

/-- A dispatch overwrites the status of its own batch, once that is inserted. -/
theorem dispatchBatch_disciplined (skipped : List Skipped) (finalTargets : List Target) :
    Always (fun _ _ _ ↦ True) (Disciplined cmd) (do
      let _ ← dispatchBatch sha1 batchId userId teamId input skipped finalTargets) := by
  unfold dispatchBatch
  simp only [Prog.bind_assoc]
  refine Always.bind (P := Prepares) ((only_perform _).mpr trivial) ?_ fun issuedAt ↦ ?_
  · intro β op k h
    exact disciplined_of_not_refreshes k (by cases op <;> first | exact h.elim | exact id)
  have hrest : ∀ _ : Unit, Only (Publishes batchId) (do
      let dispatched ← publishBatch sha1 batchId userId input issuedAt finalTargets
      let dispatchedAt ← Prog.perform .now
      Prog.perform (.markDispatched batchId dispatchedAt)
      let _ ← (Pure.pure ⟨batchId, dispatched, skipped⟩ : CommandM DispatchOutcome)) := by
    intro _
    refine (publishBatch_only issuedAt finalTargets).bind fun dispatched ↦ ?_
    exact Only.await trivial fun _ ↦ Only.await rfl fun _ ↦ trivial
  rw [perform_bind, always_call]
  constructor
  · rintro (e | u) batch hb status
    · exact id
    · refine not_aboutToOverwrite (hrest u) fun β op hop ↦ ?_
      cases op <;> first | exact hop.elim | exact id | skip
      obtain rfl := hop
      exact hb u rfl
  · rintro (e | u) -
    · trivial
    · refine Always.of_only (hrest u) fun β op k hop ↦ disciplined_of_not_refreshes k ?_
      cases op <;> first | exact hop.elim | exact id

theorem dispatchCommand_disciplined :
    Always (fun _ _ _ ↦ True) (Disciplined cmd)
      ((CommandCall.dispatch batchId userId teamId input).prog sha1) := by
  have hprep : ∀ β (op : CommandOp β) (k : Except Err β → CommandM Unit),
      Prepares β op → Disciplined cmd β op k := fun β op k h ↦
    disciplined_of_not_refreshes k (by cases op <;> first | exact h.elim | exact id)
  simp only [CommandCall.prog, dispatchCommand, Prog.bind_assoc]
  refine Always.bind ((only_perform _).mpr trivial) hprep fun targets ↦ ?_
  unfold dispatchTargets
  split
  · trivial
  split
  · trivial
  simp only [checkCommandRateLimit, Prog.bind_assoc]
  refine Always.bind ((only_perform _).mpr trivial) hprep fun results ↦ ?_
  rw [Prog.pure_def, Prog.pure_bind]
  unfold dispatchAllowed
  split
  · simp only [refuseLimitedUser, Prog.bind_assoc]
    exact Always.bind ((only_perform _).mpr trivial) hprep fun _ ↦ trivial
  split
  · trivial
  · exact dispatchBatch_disciplined ..

end Dispatch

/-- A reaper overwrites only what it has read as overdue. -/
theorem reap_disciplined : Always (fun _ _ _ ↦ True) (Disciplined cmd) reap := by
  have hstale : ∀ β (op : CommandOp β) (k : Except Err β → CommandM Unit),
      ReapsStale β op → Disciplined cmd β op k := fun β op k h ↦
    disciplined_of_not_refreshes k (by cases op <;> first | exact h.elim | exact id)
  unfold reap
  refine Always.bind ((only_perform _).mpr trivial) hstale fun started ↦ ?_
  refine Always.bind ((only_perform _).mpr trivial) hstale fun graceUntil ↦ ?_
  split
  · trivial
  refine Always.bind ((only_perform _).mpr trivial) hstale fun connected ↦ ?_
  split
  · trivial
  refine Always.bind reapStale_only hstale fun _ ↦ ?_
  have hrest : ∀ overdue : List OverdueCommand, Only (Expires (overdue.map (·.id))) (do
      let now ← Prog.perform .now
      overdue.forM (expireOverdue now)) := fun overdue ↦
    Only.await trivial fun now ↦ expireAll_only now overdue
  rw [reapOverdue, perform_bind, always_call]
  constructor
  · rintro (e | overdue) hr batch status
    · exact id
    · refine not_aboutToOverwrite (hrest overdue) fun β op hop ↦ ?_
      cases op <;> first | exact hop.elim | exact id | skip
      rintro ⟨rfl, -⟩
      obtain ⟨o, ho, rfl⟩ := List.mem_map.mp hop
      exact hr _ rfl o ho rfl
  · rintro (e | overdue) -
    · trivial
    · refine Always.of_only (hrest overdue) fun β op k hop ↦ disciplined_of_not_refreshes k ?_
      cases op <;> first | exact hop.elim | exact id

/-- Every call is disciplined. -/
theorem prog_disciplined (sha1 : List UInt8 → List UInt8) (call : CommandCall) :
    Always (fun _ _ _ ↦ True) (Disciplined cmd) (call.prog sha1) := by
  cases call with
  | dispatch batchId userId teamId input => exact dispatchCommand_disciplined
  | result deviceId payload =>
      refine Always.of_only (handleResult_only deviceId payload) fun β op k h ↦
        disciplined_of_not_refreshes k ?_
      cases op <;> first | exact h.elim | exact id
  | reap => exact reap_disciplined

/-! ## What one request does to the row -/

section Steps

variable {s : Fleet} {row : Command} {β : Type}

/-- An update of another row, or one that fails, leaves the row alone. -/
theorem find?_updateCommand_of_ne {id : String} (hid : id ≠ cmd) (f : Command → Command) :
    (s.commit (s.updateCommand id f)).2.commands.find? cmd = s.commands.find? cmd := by
  unfold Fleet.updateCommand
  split
  · rfl
  · simp [Fleet.commit, hid.symm]

theorem find?_updateCommand_self (hrow : s.commands.find? cmd = some row)
    (f : Command → Command) :
    (s.commit (s.updateCommand cmd f)).2.commands.find? cmd = some (f row) := by
  simp [Fleet.updateCommand, Fleet.commit, hrow]

theorem find?_updateDevice (deviceId : String) (f : Device → Device) :
    (s.commit (s.updateDevice deviceId f)).2.commands.find? cmd = s.commands.find? cmd := by
  unfold Fleet.updateDevice
  split <;> rfl

theorem find?_insertBatch (hrow : s.commands.find? cmd = some row) (b : String)
    (new : CommandBatch) (rows : List (String × Command)) (audit : AuditLog) :
    (s.commit (s.insertBatch b new rows audit)).2.commands.find? cmd = some row := by
  cases h : s.insertBatch b new rows audit with
  | error e => exact hrow
  | ok s' => exact ((Fleet.insertBatch_ok h).2.2.1 cmd row).mpr (.inl hrow)

/-- A request keeps the row of a command and its batch.  If the status is terminal, only an
overwriting request or a result changes it. -/
theorem serve_row (hrow : s.commands.find? cmd = some row) (op : CommandOp β) :
    ∃ row', (s.serve op).2.commands.find? cmd = some row' ∧ row'.batchId = row.batchId ∧
      (IsTerminal row.status → ¬ Overwrites row.batchId cmd row.status β op →
        row'.status = row.status ∨ Stores cmd (·.status = row'.status) β op) := by
  cases op with
  | insertBatch b new rows audit =>
      exact ⟨row, find?_insertBatch hrow b new rows audit, rfl, fun _ _ ↦ .inl rfl⟩
  | markDispatched b t =>
      refine ⟨_, by rw [Fleet.serve, Table.find?_updateMany, hrow, Option.map_some], ?_, ?_⟩
      · split <;> rfl
      · intro _ hb
        rw [if_neg (by simpa [Overwrites] using hb)]
        exact .inl rfl
  | markRunning id t =>
      refine ⟨_, by rw [Fleet.serve, Table.find?_updateMany, hrow, Option.map_some], ?_, ?_⟩
      · split <;> rfl
      · intro hterm _
        have hopen : ¬ (row.status = .pending ∨ row.status = .dispatched) := by
          rintro (h | h) <;> rw [h] at hterm <;> exact absurd hterm (by decide)
        rw [if_neg (by simp [hopen])]
        exact .inl rfl
  | createOutput id seq new =>
      refine ⟨row, ?_, rfl, fun _ _ ↦ .inl rfl⟩
      simp only [Fleet.serve, Fleet.createOutput]
      split
      · exact hrow
      cases s.outputs.insert (id, seq) new <;> exact hrow
  | markOffline deviceId =>
      refine ⟨row, ?_, rfl, fun _ _ ↦ .inl rfl⟩
      simp only [Fleet.serve, Fleet.markOffline]
      split <;> exact hrow
  | markOnline deviceId sighting =>
      exact ⟨row, (find?_updateDevice deviceId _).trans hrow, rfl, fun _ _ ↦ .inl rfl⟩
  | noteOffline deviceId lastSeenAt =>
      exact ⟨row, (find?_updateDevice deviceId _).trans hrow, rfl, fun _ _ ↦ .inl rfl⟩
  | createMetric new =>
      refine ⟨row, ?_, rfl, fun _ _ ↦ .inl rfl⟩
      simp only [Fleet.serve, Fleet.createMetric]
      split <;> exact hrow
  | storeResult id r =>
      by_cases hid : id = cmd
      · subst hid
        exact ⟨_, find?_updateCommand_self hrow _, rfl, fun _ _ ↦ .inr ⟨rfl, rfl⟩⟩
      · exact ⟨row, (find?_updateCommand_of_ne hid _).trans hrow, rfl, fun _ _ ↦ .inl rfl⟩
  | expire id t e =>
      by_cases hid : id = cmd
      · subst hid
        refine ⟨_, find?_updateCommand_self hrow _, rfl, fun _ hst ↦ .inl ?_⟩
        exact (not_not.mp fun h ↦ hst ⟨rfl, h⟩).symm
      · exact ⟨row, (find?_updateCommand_of_ne hid _).trans hrow, rfl, fun _ _ ↦ .inl rfl⟩
  | _ => exact ⟨row, hrow, rfl, fun _ _ ↦ .inl rfl⟩

/-- Whether the request fails or not. -/
theorem after_row (hrow : s.commands.find? cmd = some row) (op : CommandOp β) (f : Fate Err) :
    ∃ row', (commandServer.after f op s).commands.find? cmd = some row' ∧
      row'.batchId = row.batchId ∧
      (IsTerminal row.status → ¬ Overwrites row.batchId cmd row.status β op →
        row'.status = row.status ∨ Stores cmd (·.status = row'.status) β op) := by
  rcases commandServer.after_cases op s f with h | h
  · rw [h]
    exact ⟨row, hrow, rfl, fun _ _ ↦ .inl rfl⟩
  · rw [h]
    exact serve_row hrow op

/-- An update that keeps the batches of the rows. -/
theorem batchesExist_updateMany (hs : s.BatchesExist) (p : String → Command → Bool)
    {f : Command → Command} (hf : ∀ c, (f c).batchId = c.batchId) :
    ({ s with commands := s.commands.updateMany p f } : Fleet).BatchesExist := by
  intro id c b hc hb
  rw [Table.find?_updateMany, Option.map_eq_some_iff] at hc
  obtain ⟨c', hc', rfl⟩ := hc
  refine hs hc' (hb ▸ ?_)
  split
  · exact (hf c').symm
  · rfl

theorem batchesExist_updateCommand (hs : s.BatchesExist) (id : String)
    {f : Command → Command} (hf : ∀ c, (f c).batchId = c.batchId) :
    (s.commit (s.updateCommand id f)).2.BatchesExist := by
  unfold Fleet.updateCommand
  split
  · exact hs
  · exact batchesExist_updateMany hs _ hf

/-- No request creates a row without its batch. -/
theorem batchesExist_serve (hs : s.BatchesExist) (op : CommandOp β) :
    (s.serve op).2.BatchesExist := by
  cases op with
  | insertBatch b new rows audit =>
      simp only [Fleet.serve]
      cases h : s.insertBatch b new rows audit with
      | error e => exact hs
      | ok s' =>
          obtain ⟨-, hbatches, hcommands, hnew, -⟩ := Fleet.insertBatch_ok h
          intro id c b' hc hb
          rcases (hcommands id c).mp hc with hold | hmem
          · show (s'.batches.find? b').isSome
            rw [hbatches]
            split
            · rfl
            · exact hs hold hb
          · exact hnew id c b' hmem hb
  | markDispatched b t => exact batchesExist_updateMany hs _ fun _ ↦ rfl
  | markRunning id t => exact batchesExist_updateMany hs _ fun _ ↦ rfl
  | storeResult id r => exact batchesExist_updateCommand hs id fun _ ↦ rfl
  | expire id t e => exact batchesExist_updateCommand hs id fun _ ↦ rfl
  | createOutput id seq new =>
      simp only [Fleet.serve, Fleet.createOutput]
      split
      · exact hs
      cases s.outputs.insert (id, seq) new <;> exact hs
  | markOffline deviceId =>
      simp only [Fleet.serve, Fleet.markOffline]
      split <;> exact hs
  | markOnline deviceId sighting =>
      simp only [Fleet.serve, Fleet.updateDevice]
      split <;> exact hs
  | noteOffline deviceId lastSeenAt =>
      simp only [Fleet.serve, Fleet.updateDevice]
      split <;> exact hs
  | createMetric new =>
      simp only [Fleet.serve, Fleet.createMetric]
      split <;> exact hs
  | _ => exact hs

theorem batchesExist_after (hs : s.BatchesExist) (op : CommandOp β) (f : Fate Err) :
    (commandServer.after f op s).BatchesExist :=
  Server.after_of Fleet.BatchesExist hs (batchesExist_serve hs op) f

/-- A list of overdue commands does not contain one that has ended. -/
theorem findOverdue_excludes (hrow : s.commands.find? cmd = some row)
    (hterm : IsTerminal row.status) {take : Nat} {f : Fate Err} {l : List OverdueCommand}
    (hl : commandServer.reply f (.findOverdue take) s = .ok l) : ∀ o ∈ l, o.id ≠ cmd := by
  obtain ⟨-, hserve⟩ := Server.served_of_reply_ok hl
  cases hserve
  intro o ho hid
  obtain ⟨⟨id, c⟩, he, rfl⟩ := List.mem_map.mp ho
  obtain ⟨hc, hopen⟩ := Table.mem_findMany.mp (List.mem_of_mem_take he)
  obtain rfl : id = cmd := hid
  obtain rfl : c = row := Option.some.inj (hc.symm.trans hrow)
  have hopen := (of_decide_eq_true hopen).1
  rcases hopen with h | h <;> rw [h] at hterm <;> exact absurd hterm (by decide)

/-- A batch that is inserted was not there before. -/
theorem insertBatch_fresh (hs : s.BatchesExist) (hrow : s.commands.find? cmd = some row)
    {b : String} {new : CommandBatch} {rows : List (String × Command)} {audit : AuditLog}
    {f : Fate Err} {u : Unit}
    (hu : commandServer.reply f (.insertBatch b new rows audit) s = .ok u) :
    row.batchId ≠ some b := by
  obtain ⟨-, hserve⟩ := Server.served_of_reply_ok hu
  intro hb
  have hexists := hs hrow hb
  cases h : s.insertBatch b new rows audit with
  | error e => simp [Fleet.serve, h] at hserve
  | ok s' => simp [(Fleet.insertBatch_ok h).1] at hexists

end Steps

/-! ## The invariant -/

section Run

variable {ι : Type} [DecidableEq ι]

/-- A result of the command that is stored is terminal, and no call is about to overwrite
it. -/
def Settles (cmd : String) (c : Pool ι CommandOp Err Unit Fleet) :
    Event ι Err FleetEvent → Prop
  | .run i _ => ∀ status, AtRequest (Stores cmd (·.status = status)) (c.thread i) →
      IsTerminal status ∧ ∀ row, c.shared.commands.find? cmd = some row →
        ∀ j, ¬ AboutToOverwrite row.batchId cmd status (c.thread j)
  | .env _ => True

/-- What holds throughout every run. -/
structure Inv (cmd : String) (c : Pool ι CommandOp Err Unit Fleet) : Prop where
  batches : c.shared.BatchesExist
  disciplined : ∀ i, Always (fun _ _ _ ↦ True) (Disciplined cmd) (c.thread i)

/-- The command has ended, and no call is about to overwrite its status. -/
def Settled (cmd : String) (c : Pool ι CommandOp Err Unit Fleet) : Prop :=
  ∃ row, c.shared.commands.find? cmd = some row ∧ IsTerminal row.status ∧
    ∀ i, ¬ AboutToOverwrite row.batchId cmd row.status (c.thread i)

variable {c d : Pool ι CommandOp Err Unit Fleet} {i : ι} {f : Fate Err}

theorem Inv.step (hc : Inv cmd c) {l : Event ι Err FleetEvent}
    (hs : Pool.step commandServer FleetEvent.apply c l = some d) : Inv cmd d := by
  cases l with
  | run i f =>
      obtain ⟨β, op, k, hi, rfl⟩ := Pool.step_run hs
      have hd := hc.disciplined i
      rw [hi, always_call] at hd
      exact ⟨batchesExist_after hc.batches op f,
        Pool.forall_resume hc.disciplined i f op k (hd.2 _ trivial)⟩
  | env x =>
      obtain rfl := Pool.step_env hs
      cases x <;> exact ⟨hc.batches, hc.disciplined⟩

omit [DecidableEq ι] in
/-- Past any request, a call is not about to overwrite a terminal status if it was not
before: what it learns about the command is true. -/
theorem Inv.not_aboutToOverwrite_reply (hc : Inv cmd c) {β : Type} {op : CommandOp β}
    {k : Except Err β → CommandM Unit} (hi : c.thread i = .call op k) {row : Command}
    (hrow : c.shared.commands.find? cmd = some row)
    (hterm : Refreshes β op → IsTerminal row.status) {status : CommandStatus}
    (hnot : ¬ AboutToOverwrite row.batchId cmd status (c.thread i)) :
    ¬ AboutToOverwrite row.batchId cmd status (k (commandServer.reply f op c.shared)) := by
  have hd := hc.disciplined i
  rw [hi, always_call] at hd
  rw [hi, aboutToOverwrite_call] at hnot
  by_cases hR : Refreshes β op
  · cases op with
    | findOverdue take =>
        exact hd.1 _ (fun l hl ↦ findOverdue_excludes hrow (hterm trivial) hl) _ _
    | insertBatch b new rows audit =>
        exact hd.1 _ _ (fun u hu ↦ insertBatch_fresh hc.batches hrow hu) _
    | _ => exact hR.elim
  · exact fun h ↦ hnot (.inr ⟨hR, _, h⟩)

/-- After a request the command has ended, if its status is terminal and nobody was about to
overwrite that. -/
theorem Inv.settled_run (hc : Inv cmd c) {β : Type} {op : CommandOp β}
    {k : Except Err β → CommandM Unit} (hi : c.thread i = .call op k) {row row' : Command}
    (hrow : c.shared.commands.find? cmd = some row)
    (hrow' : (commandServer.after f op c.shared).commands.find? cmd = some row')
    (hbatch : row'.batchId = row.batchId) (hterm : IsTerminal row'.status)
    (hknown : Refreshes β op → IsTerminal row.status)
    (hnot : ∀ j, ¬ AboutToOverwrite row.batchId cmd row'.status (c.thread j)) :
    Settled cmd (c.resume commandServer i f op k) := by
  refine ⟨row', hrow', hterm, ?_⟩
  rw [hbatch]
  exact Pool.forall_resume (Φ := fun _ p ↦ ¬ AboutToOverwrite row.batchId cmd row'.status p)
    hnot i f op k (hc.not_aboutToOverwrite_reply hi hrow hknown (hnot i))

/-- Storing a terminal status that nobody is about to overwrite ends the command. -/
theorem Inv.settled_store (hc : Inv cmd c) (hg : Settles cmd c (.run i f))
    (hi : AtRequest (Stores cmd (·.status = status)) (c.thread i))
    (hs : Pool.step commandServer FleetEvent.apply c (.run i f) = some d)
    (hstored : d.shared.status? cmd = some status) : Settled cmd d := by
  obtain ⟨hterm, hnot⟩ := hg status hi
  obtain ⟨β, op, k, hcall, rfl⟩ := Pool.step_run hs
  rw [hcall, atRequest_call] at hi
  cases op with
  | storeResult id r =>
      obtain ⟨rfl, hr⟩ := hi
      cases hrow : c.shared.commands.find? id with
      | none =>
          rw [Pool.resume_shared] at hstored
          rcases commandServer.after_cases (.storeResult id r) c.shared f with h | h <;>
            simp [h, Fleet.status?, Fleet.serve, Fleet.updateCommand, Fleet.commit, hrow]
              at hstored
      | some row =>
          obtain ⟨row', hrow', hbatch, -⟩ := after_row hrow (.storeResult id r) f
          have hst : row'.status = status := by
            simpa [Fleet.status?, hrow'] using hstored
          subst hst
          exact hc.settled_run hcall hrow hrow' hbatch hterm (fun h ↦ h.elim) (hnot row hrow)
  | _ => exact hi.elim

omit [DecidableEq ι] in
/-- What is about to be requested does not overwrite a status that no call is about to. -/
theorem not_overwrites {batch : Option String} {status : CommandStatus} {i : ι} {β : Type}
    {op : CommandOp β} {k : Except Err β → CommandM Unit}
    (hnot : ∀ i, ¬ AboutToOverwrite batch cmd status (c.thread i)) (hi : c.thread i = .call op k) :
    ¬ Overwrites batch cmd status β op := by
  intro h
  have := hnot i
  rw [hi, aboutToOverwrite_call] at this
  exact this (.inl h)

/-- A settled command stays settled. -/
theorem Settled.step (hset : Settled cmd c) (hc : Inv cmd c) {l : Event ι Err FleetEvent}
    (hg : Settles cmd c l) (hs : Pool.step commandServer FleetEvent.apply c l = some d) :
    Settled cmd d := by
  obtain ⟨row, hrow, hterm, hnot⟩ := hset
  cases l with
  | run i f =>
      obtain ⟨β, op, k, hi, rfl⟩ := Pool.step_run hs
      have hop := not_overwrites hnot hi
      obtain ⟨row', hrow', hbatch, hcases⟩ := after_row hrow op f
      have hkept : IsTerminal row'.status ∧
          ∀ j, ¬ AboutToOverwrite row.batchId cmd row'.status (c.thread j) := by
        rcases hcases hterm hop with hsame | hstore
        · rw [hsame]
          exact ⟨hterm, hnot⟩
        · have := hg row'.status (by rw [hi]; exact hstore)
          exact ⟨this.1, this.2 row hrow⟩
      exact hc.settled_run hi hrow hrow' hbatch hkept.1 (fun _ ↦ hterm) hkept.2
  | env x =>
      obtain rfl := Pool.step_env hs
      cases x <;> exact ⟨row, hrow, hterm, hnot⟩

/-- Only a result changes the status of a settled command. -/
theorem Settled.status_step (hset : Settled cmd c) {l : Event ι Err FleetEvent}
    (hl : ∀ i f, l = .run i f → ¬ AtRequest (Stores cmd fun _ ↦ True) (c.thread i))
    (hs : Pool.step commandServer FleetEvent.apply c l = some d) :
    d.shared.status? cmd = c.shared.status? cmd := by
  obtain ⟨row, hrow, hterm, hnot⟩ := hset
  cases l with
  | run i f =>
      obtain ⟨β, op, k, hi, rfl⟩ := Pool.step_run hs
      have hop := not_overwrites hnot hi
      have hstore : ¬ Stores cmd (fun _ ↦ True) β op := by
        have := hl i f rfl
        rwa [hi] at this
      obtain ⟨row', hrow', -, hcases⟩ := after_row hrow op f
      rcases hcases hterm hop with hsame | h
      · simp [Fleet.status?, hrow', hrow, hsame]
      · cases op <;> first | exact h.elim | exact absurd ⟨h.1, trivial⟩ hstore
  | env x =>
      obtain rfl := Pool.step_env hs
      cases x <;> rfl

end Run

end Terminal

open Terminal in
/-- Any number of dispatches, results and reaper passes run in any order, with any failures.
Once a terminal status is stored that no call is about to overwrite, and as long as later
results of the command are terminal and find no such call either, no step but a result
changes the command's status. -/
theorem terminal_status_kept {ι : Type} [DecidableEq ι] (sha1 : List UInt8 → List UInt8)
    (call : ι → CommandCall) (cmd : String) (s : Fleet) (hs : s.BatchesExist)
    {c c₁ c₂ d : Pool ι CommandOp Err Unit Fleet} {i : ι} {f : Fate Err}
    {status : CommandStatus} {l : Event ι Err FleetEvent}
    (hc : Reach (Pool.step commandServer FleetEvent.apply) (fun _ _ ↦ True)
      ⟨s, fun j ↦ (call j).prog sha1⟩ c)
    (hi : AtRequest (Stores cmd (·.status = status)) (c.thread i))
    (hg : Settles cmd c (.run i f))
    (hstep : Pool.step commandServer FleetEvent.apply c (.run i f) = some c₁)
    (hstored : c₁.shared.status? cmd = some status)
    (hrun : Reach (Pool.step commandServer FleetEvent.apply) (Settles cmd) c₁ c₂)
    (hl : ∀ j f', l = .run j f' → ¬ AtRequest (Stores cmd fun _ ↦ True) (c₂.thread j))
    (hlast : Pool.step commandServer FleetEvent.apply c₂ l = some d) :
    d.shared.status? cmd = c₂.shared.status? cmd := by
  have hinv : Inv cmd c := by
    refine hc.invariant ?_ fun _ _ _ h _ hst ↦ h.step hst
    exact ⟨hs, fun j ↦ prog_disciplined sha1 (call j)⟩
  have hboth : Inv cmd c₂ ∧ Settled cmd c₂ := by
    refine hrun.invariant (I := fun c ↦ Inv cmd c ∧ Settled cmd c)
      ⟨hinv.step hstep, hinv.settled_store hg hi hstep hstored⟩ ?_
    exact fun _ _ _ h hgl hst ↦ ⟨h.1.step hst, h.2.step h.1 hgl hst⟩
  exact hboth.2.status_step hl hlast

/-! ## A late message and a late dispatcher -/

instance {cmd : String} {P : StoredResult → Prop} [DecidablePred P] {β : Type}
    (op : CommandOp β) : Decidable (Terminal.Stores cmd P β op) := by
  cases op <;> unfold Terminal.Stores <;> infer_instance

/-- A team with one device, which is online. -/
def oneDevice : Fleet where
  clock := 0
  devices := ⟨[("row", { userId := "user", teamId := "team", deviceId := "dev", name := "host"
                         status := .online })], List.nodup_singleton _⟩
  deviceGroups := ∅
  batches := ∅
  commands := ∅
  outputs := ∅
  auditLogs := []
  limiter := fun _ _ ↦ []
  graceUntil := 0
  connected := true

/-- The id of the command that `exampleCall` dispatches. -/
def exampleCommand : String := commandIdFor List.reverse "batch" "dev"

/-- What the agent reports about the command: that it runs it, and how that ended. -/
def exampleAcceptance : ResultPayload where
  id := exampleCommand
  kind := .accepted
  status := some .running

@[inherit_doc exampleAcceptance]
def exampleResult : ResultPayload where
  id := exampleCommand
  kind := .result
  status := some .completed
  finishedAt := some 1

/-- A dispatch, the result of its command, and the acceptance. -/
def exampleCall : Fin 3 → CommandCall
  | 0 => .dispatch "batch" "user" "team" { command := "uptime", deviceIds := ["dev"] }
  | 1 => .result "dev" (some exampleResult)
  | 2 => .result "dev" (some exampleAcceptance)

/-- The three calls before they start. -/
def examplePool : Pool (Fin 3) CommandOp Err Unit Fleet :=
  ⟨oneDevice, fun i ↦ (exampleCall i).prog List.reverse⟩

/-- In every run of the example the last two calls only handle messages. -/
theorem examplePool_handles {c : Pool (Fin 3) CommandOp Err Unit Fleet}
    (hc : Reach (Pool.step commandServer FleetEvent.apply) (fun _ _ ↦ True) examplePool c) :
    ∀ i, i ≠ 0 → Only Handles (c.thread i) := by
  refine hc.invariant (I := fun c ↦ ∀ i, i ≠ 0 → Only Handles (c.thread i)) ?_ ?_
  · intro i hi
    match i with
    | 0 => contradiction
    | 1 => exact handleResult_only "dev" (some exampleResult)
    | 2 => exact handleResult_only "dev" (some exampleAcceptance)
  · intro c l d h _ hs
    cases l with
    | run i f =>
        obtain ⟨β, op, k, hi, rfl⟩ := Pool.step_run hs
        refine Pool.forall_resume (Φ := fun i p ↦ i ≠ 0 → Only Handles p) h i f op k fun hne ↦ ?_
        have := h i hne
        rw [hi, only_call] at this
        exact this.2 _
    | env x =>
        obtain rfl := Pool.step_env hs
        exact h

open Terminal in
/-- The dispatch completes and the result is stored; then the acceptance, which was read
before, is late and changes nothing. -/
theorem terminal_status_kept_late_accepted : ∃ c d : Pool (Fin 3) CommandOp Err Unit Fleet,
    Reach (Pool.step commandServer FleetEvent.apply) (fun _ _ ↦ True) examplePool c ∧
    Pool.step commandServer FleetEvent.apply c (.run 2 .served) = some d ∧
    c.shared.status? exampleCommand = some .succeeded ∧
    d.shared.status? exampleCommand = some .succeeded := by
  have hrun : ∃ c : Pool (Fin 3) CommandOp Err Unit Fleet,
      Reach (Pool.step commandServer FleetEvent.apply) (fun _ _ ↦ True) examplePool c ∧
      Returned (fun _ ↦ True) (c.thread 0) ∧
      AtRequest (Stores exampleCommand (·.status = .succeeded)) (c.thread 1) ∧
      (Pool.step commandServer FleetEvent.apply c (.run 1 .served)).any fun c₁ ↦
        decide (c₁.shared.status? exampleCommand = some .succeeded ∧
          ¬ AtRequest (Stores exampleCommand fun _ ↦ True) (c₁.thread 2) ∧
          (Pool.step commandServer FleetEvent.apply c₁ (.run 2 .served)).isSome) :=
    Reach.exists_of_exec (List.replicate 7 (.run 0 .served) ++
      [.run 2 .served, .run 2 .served, .run 1 .served]) (by decide)
  obtain ⟨c, hc, hreturned, hstore, hnext⟩ := hrun
  obtain ⟨c₁, hc₁, hnext⟩ := (Option.any_eq_true _ _).mp hnext
  obtain ⟨hstored, hlate, hd⟩ := of_decide_eq_true hnext
  obtain ⟨d, hd⟩ := Option.isSome_iff_exists.mp hd
  have hg : Settles exampleCommand c (.run 1 .served) := by
    intro status hstatus
    obtain rfl : status = .succeeded := by
      cases h : c.thread 1 with
      | call op k =>
          rw [h] at hstatus hstore
          cases op with
          | storeResult id r => exact hstatus.2.symm.trans hstore.2
          | _ => exact hstore.elim
      | _ => simp [h] at hstore
    refine ⟨by decide, fun row _ j ↦ ?_⟩
    by_cases hj : j = 0
    · subst hj
      cases h : c.thread 0 <;> simp [h] at hreturned
      exact id
    · refine not_aboutToOverwrite (examplePool_handles hc j hj) fun β op h ↦ ?_
      cases op <;> first | exact h.elim | exact id
  have hs : oneDevice.BatchesExist := fun _ _ _ h ↦ (nomatch h)
  refine ⟨c₁, d, hc.next _ trivial hc₁, hd, hstored, ?_⟩
  rw [terminal_status_kept List.reverse exampleCall exampleCommand oneDevice hs hc hstore hg hc₁
    hstored .start (fun j f' h ↦ by cases h; exact hlate) hd, hstored]

/-- The agent answers before the dispatcher marks the batch dispatched: the stored result is
overwritten. -/
theorem terminal_status_overwritten : ∃ c d : Pool (Fin 3) CommandOp Err Unit Fleet,
    Reach (Pool.step commandServer FleetEvent.apply) (fun _ _ ↦ True) examplePool c ∧
    Pool.step commandServer FleetEvent.apply c (.run 0 .served) = some d ∧
    c.shared.status? exampleCommand = some .succeeded ∧
    d.shared.status? exampleCommand = some .dispatched := by
  have hrun : ∃ c : Pool (Fin 3) CommandOp Err Unit Fleet,
      Reach (Pool.step commandServer FleetEvent.apply) (fun _ _ ↦ True) examplePool c ∧
      c.shared.status? exampleCommand = some .succeeded ∧
      (Pool.step commandServer FleetEvent.apply c (.run 0 .served)).any fun d ↦
        decide (d.shared.status? exampleCommand = some .dispatched) :=
    -- up to the publish, then the result, then the dispatcher asks for the time
    Reach.exists_of_exec (List.replicate 5 (.run 0 .served) ++
      [.run 1 .served, .run 1 .served, .run 0 .served]) (by decide)
  obtain ⟨c, hc, hstored, hnext⟩ := hrun
  obtain ⟨d, hd, hnext⟩ := (Option.any_eq_true _ _).mp hnext
  exact ⟨c, d, hc, hd, hstored, of_decide_eq_true hnext⟩

end Zenstier
