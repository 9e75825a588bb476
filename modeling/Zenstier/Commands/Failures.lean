import Zenstier.Commands.Dispatch
import Zenstier.Concurrent.Fates

/-!
# When a dispatch fails

The publishes of a batch are started together, and the first one that fails makes
`dispatchCommand` throw, although the others may have been delivered.  So may the failed one
itself, and so have all of them when it is the last update that fails.  The caller then hears
that the dispatch has failed, and the rows stay as they were inserted.
-/

namespace Zenstier

open Store Concurrent

/-! ## Patterns of failures -/

/-- What becomes of the requests of a dispatch. -/
structure DispatchFates where
  findTargets : Fate Err := .served
  evalRateLimit : Fate Err := .served
  createAuditLog : Fate Err := .served
  insertBatch : Fate Err := .served
  publishCommand : Topic → Fate Err := fun _ ↦ .served
  markDispatched : Fate Err := .served

/-- The fate of a request. -/
def DispatchFates.fate (f : DispatchFates) : ∀ β : Type, CommandOp β → Fate Err
  | _, .findTargets _ _ => f.findTargets
  | _, .evalRateLimit _ _ => f.evalRateLimit
  | _, .createAuditLog _ => f.createAuditLog
  | _, .insertBatch _ _ _ _ => f.insertBatch
  | _, .publishCommand topic _ => f.publishCommand topic
  | _, .markDispatched _ _ => f.markDispatched
  | _, _ => .served

/-- What a request sends to the agents. -/
def messageOf : ∀ β : Type, CommandOp β → List (Topic × CommandPayload)
  | _, .publishCommand topic payload => [(topic, payload)]
  | _, _ => []

/-- The stores, with a record of what the agents have been sent. -/
abbrev sendingServer : Server CommandOp Err (Recorded Fleet (Topic × CommandPayload)) :=
  commandServer.recording messageOf

section Dispatch

variable (sha1 : List UInt8 → List UInt8) (batchId userId teamId : String)
  (input : DispatchCommandInput)

/-- The topic on which a device gets its command. -/
def topicFor (deviceId : String) : Topic :=
  match broadcastGroup input with
  | some groupId => .broadcastCommand groupId
  | none => .command deviceId

/-- What the caller is told of a device that was published to. -/
def dispatchedAs (t : Target) : Dispatched :=
  ⟨t.deviceId, commandIdFor sha1 batchId t.deviceId⟩

/-- What `dispatchCommand` tells its caller is what has happened. -/
structure Honest (f : DispatchFates) (s : Fleet) (r : Except Err DispatchOutcome)
    (t : Recorded Fleet (Topic × CommandPayload)) : Prop where
  /-- Where it throws, no agent has been sent anything. -/
  thrown : ∀ e, r = .error e → t.log = []
  /-- Where it returns, it lists the devices whose publish succeeded. -/
  listed : ∀ out, r = .ok out → ∀ deviceId, deviceId ∈ out.dispatched.map (·.deviceId) ↔
    f.publishCommand (topicFor input deviceId) = .served ∧
      ∃ target ∈ s.finalTargets userId teamId input, target.deviceId = deviceId
  sent : ∀ out, r = .ok out → ∀ x ∈ out.dispatched, ∃ payload,
    (topicFor input x.deviceId, payload) ∈ t.log
  stored : ∀ out, r = .ok out → ∀ x ∈ out.dispatched, ∃ c,
    t.state.commands.find? x.commandId = some c ∧ c.status ≠ .pending

/-- The dispatch gets as far as publishing. -/
structure Publishes (f : DispatchFates) (s s' : Fleet) : Prop where
  targets : f.findTargets = .served
  limit : f.evalRateLimit = .served
  insert : f.insertBatch = .served
  inserted : s.insertSelected sha1 batchId userId teamId input = .ok s'
  selected : s.finalTargets userId teamId input ≠ []

/-- No publish is delivered, or none fails and neither does the last update. -/
def AllOrNothing (f : DispatchFates) (finalTargets : List Target) : Prop :=
  (∀ t ∈ finalTargets, ∃ e, f.publishCommand (topicFor input t.deviceId) = .refused e) ∨
    (∀ t ∈ finalTargets, f.publishCommand (topicFor input t.deviceId) = .served) ∧
      f.markDispatched = .served

end Dispatch

section Runs

variable {sha1 : List UInt8 → List UInt8} {batchId userId teamId : String}
  {input : DispatchCommandInput} {f : DispatchFates}

/-- What the agents have been sent of a message, and what the program gets to know. -/
def sentOf (fate : Fate Err) (message : Topic × CommandPayload) : List (Topic × CommandPayload) :=
  match fate with
  | .refused _ => []
  | .served | .unanswered _ => [message]

def answerOf {α : Type} (fate : Fate Err) (a : α) : Except Err α :=
  match fate with
  | .served => .ok a
  | .refused e | .unanswered e => .error e

/-- A publish and what follows. -/
theorem runBy_publish {α : Type} (topic : Topic) (payload : CommandPayload) (a : α)
    (r : Recorded Fleet (Topic × CommandPayload)) :
    runBy sendingServer f.fate (do
      .perform (.publishCommand topic payload)
      return a) r =
      (answerOf (f.publishCommand topic) a,
        ⟨r.state, r.log ++ sentOf (f.publishCommand topic) (topic, payload)⟩) := by
  rw [runBy_await]
  show runBy _ _ (.ofExcept (Server.reply _ (f.publishCommand topic) _ _) >>= _)
    (Server.after _ (f.publishCommand topic) _ _) = _
  cases f.publishCommand topic with
  | served => rfl
  | refused e => exact congrArg (Prod.mk _) (by rw [sentOf, List.append_nil]; rfl)
  | unanswered e => rfl

theorem sentOf_eq_nil {fate : Fate Err} {message : Topic × CommandPayload} :
    sentOf fate message = [] ↔ ∃ e, fate = .refused e := by
  cases fate <;> simp [sentOf]

theorem answerOf_eq_error {α : Type} {fate : Fate Err} {a : α} {e : Err}
    (h : answerOf fate a = .error e) : fate ≠ .served := by
  rintro rfl
  cases h

/-- What is told and what is sent when a batch is published. -/
structure Published (sha1 : List UInt8 → List UInt8) (batchId : String)
    (input : DispatchCommandInput) (f : DispatchFates) (finalTargets : List Target)
    (r : Except Err (List Dispatched)) (sent : List (Topic × CommandPayload)) : Prop where
  answer : (∀ t ∈ finalTargets, f.publishCommand (topicFor input t.deviceId) = .served) ∧
      r = .ok (finalTargets.map (dispatchedAs sha1 batchId)) ∨
    (∃ t ∈ finalTargets, f.publishCommand (topicFor input t.deviceId) ≠ .served) ∧
      ∃ e, r = .error e
  nothing : sent = [] ↔
    ∀ t ∈ finalTargets, ∃ e, f.publishCommand (topicFor input t.deviceId) = .refused e
  sent : ∀ t ∈ finalTargets, f.publishCommand (topicFor input t.deviceId) = .served →
    ∃ payload, (topicFor input t.deviceId, payload) ∈ sent

/-- Notes that are taken one after the other. -/
theorem foldl_log {α σ O : Type} (note : α → List O) (l : List α) (r : Recorded σ O) :
    l.foldl (fun r a ↦ ⟨r.state, r.log ++ note a⟩) r = ⟨r.state, r.log ++ l.flatMap note⟩ := by
  induction l generalizing r with
  | nil =>
      rw [List.flatMap_nil, List.append_nil]
      rfl
  | cons a l ih => rw [List.foldl_cons, ih, List.flatMap_cons, List.append_assoc]

theorem published_broadcast {groupId : String} (hg : broadcastGroup input = some groupId)
    {finalTargets : List Target} (hne : finalTargets ≠ []) (payload : CommandPayload) :
    Published sha1 batchId input f finalTargets
      (answerOf (f.publishCommand (.broadcastCommand groupId))
        (finalTargets.map (dispatchedAs sha1 batchId)))
      (sentOf (f.publishCommand (.broadcastCommand groupId))
        (.broadcastCommand groupId, payload)) := by
  have htopic (deviceId) : topicFor input deviceId = .broadcastCommand groupId := by
    rw [topicFor, hg]
  obtain ⟨target, htarget⟩ := List.exists_mem_of_ne_nil _ hne
  constructor
  · simp only [htopic]
    cases hf : f.publishCommand (.broadcastCommand groupId) with
    | served => exact .inl ⟨fun _ _ ↦ rfl, rfl⟩
    | refused e => exact .inr ⟨⟨target, htarget, nofun⟩, e, rfl⟩
    | unanswered e => exact .inr ⟨⟨target, htarget, nofun⟩, e, rfl⟩
  · simp only [htopic]
    rw [sentOf_eq_nil]
    exact ⟨fun h _ _ ↦ h, fun h ↦ h target htarget⟩
  · intro t _ hserved
    rw [htopic] at hserved ⊢
    rw [hserved]
    exact ⟨payload, List.mem_singleton.mpr rfl⟩

theorem published_fanOut (hg : broadcastGroup input = none) (finalTargets : List Target)
    (payload : Target → CommandPayload) :
    Published sha1 batchId input f finalTargets
      (Prog.sequenceOutcomes (finalTargets.map fun t ↦
        answerOf (f.publishCommand (.command t.deviceId)) (dispatchedAs sha1 batchId t)))
      (finalTargets.flatMap fun t ↦
        sentOf (f.publishCommand (.command t.deviceId)) (.command t.deviceId, payload t)) := by
  have htopic (deviceId) : topicFor input deviceId = .command deviceId := by
    rw [topicFor, hg]
  constructor
  · simp only [htopic]
    refine (Prog.sequenceOutcomes_map
      (fun t ↦ answerOf (f.publishCommand (.command t.deviceId)) (dispatchedAs sha1 batchId t))
      (dispatchedAs sha1 batchId) finalTargets ?_).imp ?_ ?_
    · intro t x hx
      cases hf : f.publishCommand (.command t.deviceId) with
      | served =>
          rw [hf] at hx
          exact (Except.ok.inj hx).symm
      | refused e | unanswered e =>
          rw [hf] at hx
          cases hx
    · rintro ⟨hall, hok⟩
      refine ⟨fun t ht ↦ ?_, hok⟩
      have ht := hall t ht
      cases hf : f.publishCommand (.command t.deviceId) with
      | served => rfl
      | refused e | unanswered e =>
          rw [hf] at ht
          cases ht
    · rintro ⟨e, ⟨t, ht, hte⟩, herr⟩
      exact ⟨⟨t, ht, answerOf_eq_error hte⟩, e, herr⟩
  · simp only [htopic, List.flatMap_eq_nil_iff, sentOf_eq_nil]
  · intro t ht hserved
    rw [htopic] at hserved ⊢
    refine ⟨payload t, List.mem_flatMap.mpr ⟨t, ht, ?_⟩⟩
    rw [hserved]
    exact List.mem_singleton.mpr rfl

/-- A batch is published to all, and the stores stay as they are. -/
theorem runBy_publishBatch (issuedAt : Int) {finalTargets : List Target}
    (hne : finalTargets ≠ []) (r : Recorded Fleet (Topic × CommandPayload)) :
    ∃ answer sent, Published sha1 batchId input f finalTargets answer sent ∧
      runBy sendingServer f.fate (publishBatch sha1 batchId userId input issuedAt finalTargets) r =
        (answer, ⟨r.state, r.log ++ sent⟩) := by
  unfold publishBatch
  cases hg : broadcastGroup input with
  | some groupId => exact ⟨_, _, published_broadcast hg hne _, runBy_publish _ _ _ r⟩
  | none =>
      refine ⟨_, _, published_fanOut hg finalTargets
        (devicePayload sha1 batchId userId input issuedAt), ?_⟩
      dsimp only
      rw [runBy_awaitAll fun t r ↦ runBy_publish (.command t.deviceId) _ _ r, foldl_log]
      rfl

/-- What follows the publishes. -/
def finish (batchId : String) (skipped : List Skipped) (dispatched : List Dispatched) :
    CommandM DispatchOutcome := do
  let dispatchedAt ← .perform .now
  .perform (.markDispatched batchId dispatchedAt)
  return ⟨batchId, dispatched, skipped⟩

/-- The dispatch gets as far as publishing, with the rows inserted, or it throws with nothing
sent. -/
def Decided (sha1 : List UInt8 → List UInt8) (batchId userId teamId : String)
    (input : DispatchCommandInput) (f : DispatchFates) (s : Fleet)
    (run : Except Err DispatchOutcome × Recorded Fleet (Topic × CommandPayload)) : Prop :=
  (∃ s', Publishes sha1 batchId userId teamId input f s s' ∧ run = runBy sendingServer f.fate
    (publishBatch sha1 batchId userId input s.clock (s.finalTargets userId teamId input) >>=
      finish batchId (s.skippedTargets userId teamId input)) ⟨s', []⟩) ∨
  (∀ s', ¬ Publishes sha1 batchId userId teamId input f s s') ∧
    ∃ e t, run = (.error e, ⟨t, []⟩)

/-- A request that fails ends the dispatch. -/
theorem decided_await {α : Type} {s s₁ : Fleet} {op : CommandOp α}
    {k : α → CommandM DispatchOutcome}
    (hsilent : messageOf α op = [])
    (hneeded : ∀ s', Publishes sha1 batchId userId teamId input f s s' → f.fate α op = .served)
    (hserved : f.fate α op = .served → Decided sha1 batchId userId teamId input f s
      (runBy sendingServer f.fate (.ofExcept (s₁.serve op).1 >>= k) ⟨(s₁.serve op).2, []⟩)) :
    Decided sha1 batchId userId teamId input f s
      (runBy sendingServer f.fate (.perform op >>= k) ⟨s₁, []⟩) := by
  have hserve : (sendingServer.serve op ⟨s₁, []⟩).2 = ⟨(s₁.serve op).2, []⟩ := by
    show Recorded.mk _ ([] ++ messageOf α op) = _
    rw [hsilent, List.append_nil]
    rfl
  rw [runBy_await]
  cases hf : f.fate α op with
  | served =>
      rw [Server.after_served, Server.reply_served, hserve]
      exact hserved hf
  | refused e =>
      exact .inr ⟨fun s' h ↦ absurd ((hneeded s' h).symm.trans hf) nofun, e, s₁, rfl⟩
  | unanswered e =>
      rw [Server.after_unanswered, hserve]
      exact .inr ⟨fun s' h ↦ absurd ((hneeded s' h).symm.trans hf) nofun, e, _, rfl⟩

theorem decided_throw {s s₁ : Fleet} {e : Err}
    (hnot : ∀ s', ¬ Publishes sha1 batchId userId teamId input f s s') :
    Decided sha1 batchId userId teamId input f s
      (runBy sendingServer f.fate (throw e) ⟨s₁, []⟩) := .inr ⟨hnot, e, s₁, rfl⟩

theorem decided_dispatchCommand (s : Fleet) : Decided sha1 batchId userId teamId input f s
    (runBy sendingServer f.fate (dispatchCommand sha1 batchId userId teamId input) ⟨s, []⟩) := by
  have hselected {s'} (h : Publishes sha1 batchId userId teamId input f s s') :
      ∃ t, t ∈ onlineTargets (s.findTargets teamId (targetFilter input)) ∧
        t ∈ s.findTargets teamId (targetFilter input) := by
    obtain ⟨t, ht⟩ := List.exists_mem_of_ne_nil _ h.selected
    have ht := (List.mem_filter.mp ht).1
    exact ⟨t, ht, (List.mem_filter.mp ht).1⟩
  unfold dispatchCommand
  refine decided_await rfl (fun s' h ↦ h.targets) fun htargets ↦ ?_
  show Decided _ _ _ _ _ _ _ (runBy _ _
    (dispatchTargets sha1 batchId userId teamId input _) ⟨s, []⟩)
  unfold dispatchTargets
  split
  · rename_i hnil
    refine decided_throw fun s' h ↦ ?_
    obtain ⟨t, -, ht⟩ := hselected h
    rw [hnil] at ht
    cases ht
  split
  · rename_i hnil
    refine decided_throw fun s' h ↦ ?_
    obtain ⟨t, ht, -⟩ := hselected h
    rw [hnil] at ht
    cases ht
  rw [checkCommandRateLimit, Prog.bind_assoc]
  refine decided_await rfl (fun s' h ↦ h.limit) fun hlimit ↦ ?_
  show Decided _ _ _ _ _ _ _ (runBy _ _
    (dispatchAllowed sha1 batchId userId teamId input _ (s.rateLimit userId teamId input)) ⟨s, []⟩)
  unfold dispatchAllowed
  split
  · rename_i hlimited
    have hnot (s') : ¬ Publishes sha1 batchId userId teamId input f s s' := fun h ↦
      Fleet.user_within_budget h.selected hlimited
    exact decided_await rfl (fun s' h ↦ absurd h (hnot s')) fun _ ↦ decided_throw hnot
  split
  · rename_i hnil
    exact decided_throw fun s' h ↦ h.selected hnil
  rename_i hne
  unfold dispatchBatch
  refine decided_await rfl (fun _ _ ↦ rfl) fun _ ↦ ?_
  refine decided_await rfl (fun s' h ↦ h.insert) fun hinsert ↦ ?_
  show Decided _ _ _ _ _ _ _ (runBy _ _
    (.ofExcept (s.commit (s.insertSelected sha1 batchId userId teamId input)).1 >>= _)
    ⟨(s.commit (s.insertSelected sha1 batchId userId teamId input)).2, []⟩)
  cases hins : s.insertSelected sha1 batchId userId teamId input with
  | error e =>
      refine decided_throw fun s' h ↦ ?_
      rw [h.inserted] at hins
      cases hins
  | ok s' => exact .inl ⟨s', ⟨htargets, hlimit, hinsert, hins, hne⟩, rfl⟩

/-- The last update marks the rows of the batch. -/
theorem find?_markDispatched {s s' : Fleet}
    (h : s.insertSelected sha1 batchId userId teamId input = .ok s') {t : Target}
    (ht : t ∈ s.finalTargets userId teamId input) (dispatchedAt : Int) :
    ∃ c, (s'.serve (.markDispatched batchId dispatchedAt)).2.commands.find?
      (commandIdFor sha1 batchId t.deviceId) = some c ∧ c.status = .dispatched := by
  obtain ⟨-, -, hfind, -, -⟩ := Fleet.insertBatch_ok h
  obtain ⟨row, hrow, hbatch⟩ : ∃ row, s'.commands.find? (commandIdFor sha1 batchId t.deviceId) =
      some row ∧ row.batchId = some batchId :=
    ⟨_, (hfind _ _).mpr (.inr (Fleet.mem_created.mpr
      ⟨commandRow sha1 batchId userId teamId input t, List.mem_map.mpr ⟨t, ht, rfl⟩, rfl⟩)), rfl⟩
  have hmarked := Table.find?_updateMany s'.commands
    (fun _ c ↦ c.batchId = some batchId) ({ · with
      status := .dispatched, dispatchedAt := some dispatchedAt })
    (commandIdFor sha1 batchId t.deviceId)
  rw [hrow, Option.map_some, if_pos (decide_eq_true hbatch)] at hmarked
  exact ⟨_, hmarked, rfl⟩

/-- A dispatch that has thrown is honest if nothing has been sent. -/
theorem honest_error {s : Fleet} {e : Err} {t : Recorded Fleet (Topic × CommandPayload)} :
    Honest userId teamId input f s (.error e) t ↔ t.log = [] := by
  constructor
  · intro h
    exact h.thrown e rfl
  · intro h
    exact ⟨fun _ _ ↦ h, nofun, nofun, nofun⟩

/-- After a publish of everything, the last update decides. -/
theorem honest_finish {s s' : Fleet}
    (hpub : Publishes sha1 batchId userId teamId input f s s')
    {sent : List (Topic × CommandPayload)} {answer : Except Err (List Dispatched)}
    (hP : Published sha1 batchId input f (s.finalTargets userId teamId input) answer sent)
    (hall : ∀ t ∈ s.finalTargets userId teamId input,
      f.publishCommand (topicFor input t.deviceId) = .served)
    {run} (hrun : runBy sendingServer f.fate (finish batchId (s.skippedTargets userId teamId input)
      ((s.finalTargets userId teamId input).map (dispatchedAs sha1 batchId))) ⟨s', sent⟩ = run) :
    Honest userId teamId input f s run.1 run.2 ↔ f.markDispatched = .served := by
  obtain ⟨target, htarget⟩ := List.exists_mem_of_ne_nil _ hpub.selected
  have hsent : sent ≠ [] := by
    rw [Ne, hP.nothing]
    intro hrefused
    obtain ⟨e, he⟩ := hrefused target htarget
    exact absurd ((hall target htarget).symm.trans he) nofun
  have hfinish : runBy sendingServer f.fate (finish batchId
      (s.skippedTargets userId teamId input)
      ((s.finalTargets userId teamId input).map (dispatchedAs sha1 batchId))) ⟨s', sent⟩ =
      runBy sendingServer f.fate (.ofExcept (Server.reply sendingServer f.markDispatched
        (.markDispatched batchId s'.clock) ⟨s', sent ++ []⟩) >>= _)
        (Server.after sendingServer f.markDispatched
          (.markDispatched batchId s'.clock) ⟨s', sent ++ []⟩) := rfl
  rw [hfinish, List.append_nil] at hrun
  subst hrun
  cases hmark : f.markDispatched with
  | refused e => exact honest_error.trans ⟨fun h ↦ absurd h hsent, nofun⟩
  | unanswered e =>
      exact honest_error.trans ⟨fun h ↦ absurd (List.append_eq_nil_iff.mp h).1 hsent, nofun⟩
  | served =>
      refine iff_of_true ⟨nofun, ?_, ?_, ?_⟩ rfl
      · rintro _ ⟨⟩ deviceId
        show deviceId ∈ (List.map (dispatchedAs sha1 batchId) _).map (·.deviceId) ↔ _
        rw [List.map_map, List.mem_map]
        constructor
        · rintro ⟨t, ht, rfl⟩
          exact ⟨hall t ht, t, ht, rfl⟩
        · rintro ⟨-, t, ht, rfl⟩
          exact ⟨t, ht, rfl⟩
      · rintro _ ⟨⟩ x hx
        obtain ⟨t, ht, rfl⟩ := List.mem_map.mp hx
        obtain ⟨payload, hpayload⟩ := hP.sent t ht (hall t ht)
        exact ⟨payload, List.mem_append_left _ hpayload⟩
      · rintro _ ⟨⟩ x hx
        obtain ⟨t, ht, rfl⟩ := List.mem_map.mp hx
        obtain ⟨c, hc, hstatus⟩ := find?_markDispatched hpub.inserted ht s'.clock
        exact ⟨c, hc, by rw [hstatus]; nofun⟩

/-- The caller hears the truth exactly when a dispatch that gets as far as publishing does all
of the rest or sends nothing. -/
theorem dispatch_honest (sha1 : List UInt8 → List UInt8) (batchId userId teamId : String)
    (input : DispatchCommandInput) (f : DispatchFates) (s : Fleet) :
    (∀ r t, Eval sendingServer (given f.fate)
        (dispatchCommand sha1 batchId userId teamId input) ⟨s, []⟩ r t →
      Honest userId teamId input f s r t) ↔
    ∀ s', Publishes sha1 batchId userId teamId input f s s' →
      AllOrNothing input f (s.finalTargets userId teamId input) := by
  rw [forall_eval_iff]
  rcases decided_dispatchCommand s with ⟨s', hpub, hrun⟩ | ⟨hnot, e, t, hrun⟩
  · rw [hrun, runBy_bind]
    obtain ⟨answer, sent, hP, hbatch⟩ := @runBy_publishBatch sha1 batchId userId input f s.clock
      _ hpub.selected ⟨s', []⟩
    rw [hbatch]
    have hiff : (∀ s', Publishes sha1 batchId userId teamId input f s s' →
        AllOrNothing input f (s.finalTargets userId teamId input)) ↔
        AllOrNothing input f (s.finalTargets userId teamId input) :=
      ⟨fun h ↦ h s' hpub, fun h _ _ ↦ h⟩
    rw [hiff]
    rcases hP.answer with ⟨hall, rfl⟩ | ⟨⟨t, ht, hfails⟩, e, rfl⟩
    · dsimp only
      rw [List.nil_append, honest_finish hpub hP hall rfl, AllOrNothing, and_iff_right hall,
        or_iff_right]
      intro hrefused
      obtain ⟨t, ht⟩ := List.exists_mem_of_ne_nil _ hpub.selected
      obtain ⟨e, he⟩ := hrefused t ht
      exact absurd ((hall t ht).symm.trans he) nofun
    · dsimp only
      rw [honest_error, List.nil_append, hP.nothing, AllOrNothing, or_iff_left]
      rintro ⟨hall, -⟩
      exact hfails (hall t ht)
  · rw [hrun, honest_error]
    exact ⟨fun _ s' h ↦ absurd h (hnot s'), fun _ ↦ rfl⟩

end Runs

/-! ## One of two publishes fails -/

def bothOnline : Fleet where
  clock := 0
  devices := ⟨[("row", { userId := "user", teamId := "team", deviceId := "dev", name := "host"
                         status := .online }),
      ("row'", { userId := "user", teamId := "team", deviceId := "dev'", name := "host"
                 status := .online })], by decide⟩
  deviceGroups := ∅
  batches := ∅
  commands := ∅
  outputs := ∅
  auditLogs := []
  limiter := fun _ _ ↦ []
  graceUntil := 0
  connected := true

/-- The publish to the second device is refused. -/
def secondFails : DispatchFates where
  publishCommand topic :=
    if topic = .command "dev'" then .refused (.error "publish timed out") else .served

def toBoth : DispatchCommandInput where
  command := "uptime"
  deviceIds := ["dev", "dev'"]

/-- The first device has been sent the command, and the caller is told that the dispatch has
failed. -/
theorem dispatch_dishonest : ∃ r t, Eval sendingServer (given secondFails.fate)
    (dispatchCommand List.reverse "batch" "user" "team" toBoth) ⟨bothOnline, []⟩ r t ∧
    r = .error (.error "publish timed out") ∧ t.log.map Prod.fst = [.command "dev"] ∧
    ¬ Honest "user" "team" toBoth secondFails bothOnline r t := by
  obtain ⟨r, t, heval, hthrown, hsent⟩ : ∃ r t, Eval sendingServer (given secondFails.fate)
      (dispatchCommand List.reverse "batch" "user" "team" toBoth) ⟨bothOnline, []⟩ r t ∧
      r = .error (.error "publish timed out") ∧ t.log.map Prod.fst = [.command "dev"] :=
    ⟨_, _, Eval.runBy _ _, by rfl, by decide⟩
  refine ⟨r, t, heval, hthrown, hsent, fun h ↦ ?_⟩
  rw [h.thrown _ hthrown] at hsent
  cases hsent

end Zenstier
