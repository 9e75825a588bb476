import Zenstier.Agent.Protocol
import Zenstier.Concurrent.Fates

/-!
# Broadcast subscriptions

`OnConnect` and `UpdateGroups` of `client.go`.  The client keeps a record of its groups, and
`UpdateGroups` makes the difference between the record and the new groups the work that it does
at the broker.  The record is replaced first, whatever becomes of the work.
-/

namespace Zenstier.Agent

open Concurrent

/-- `BroadcastTopic`. -/
def broadcastTopic (groupID : String) : String := (Topic.broadcastCommand groupID).path

/-- `CommandTopic`. -/
def commandTopic (deviceID : String) : String := (Topic.command deviceID).path

theorem broadcastTopic_inj {g g' : String} (h : broadcastTopic g = broadcastTopic g') : g = g' :=
  Topic.broadcast_path_inj h

/-! ## The connection -/

/-- A connection of the client. -/
structure Conn where
  /-- `groups` of the client, under its mutex. -/
  groups : List String
  /-- `Groups` of the configuration. -/
  cfgGroups : List String
  /-- `Groups` in the configuration file. -/
  savedGroups : List String
  /-- What the broker has subscribed this connection to. -/
  topics : List String
deriving DecidableEq, Repr

inductive ConnOp : Type → Type
  | currentGroups : ConnOp (List String)
  /-- Records the groups and answers with those that were on record. -/
  | swapGroups (groups : List String) : ConnOp (List String)
  | subscribe (topic : String) : ConnOp Unit
  | unsubscribe (topic : String) : ConnOp Unit
  | setConfigGroups (groups : List String) : ConnOp Unit
  /-- `config.Save`. -/
  | saveConfig : ConnOp Unit

namespace Conn

/-- Serves one request. -/
def serve {β : Type} : ConnOp β → Conn → Except String β × Conn
  | .currentGroups, s => (.ok s.groups, s)
  | .swapGroups groups, s => (.ok s.groups, { s with groups })
  | .subscribe topic, s => (.ok (), { s with topics := topic :: s.topics })
  | .unsubscribe topic, s => (.ok (), { s with topics := s.topics.filter (· ≠ topic) })
  | .setConfigGroups groups, s => (.ok (), { s with cfgGroups := groups })
  | .saveConfig, s => (.ok (), { s with savedGroups := s.cfgGroups })

end Conn

/-- The connection as a server. -/
def connServer : Server ConnOp String Conn := ⟨fun op s ↦ s.serve op⟩

/-- The broker and the file system may fail, the memory of the client does not. -/
def connFates : Admits ConnOp String Conn := fun _ op f _ ↦ match op with
  | .currentGroups | .swapGroups _ | .setConfigGroups _ => f = .served
  | .subscribe _ | .unsubscribe _ | .saveConfig => True

abbrev ConnM := Prog ConnOp String

/-! ## The handlers -/

/-- The handler of every connect; that the subscription of a group fails is only logged. -/
def onConnect (deviceID : String) : ConnM Unit := do
  match ← (.perform (.subscribe (commandTopic deviceID)) : ConnM Unit).attempt with
  | .error _ => return
  | .ok _ => do
      let groups ← .perform .currentGroups
      groups.forM fun g ↦ do
        let _ ← (.perform (.subscribe (broadcastTopic g)) : ConnM Unit).attempt

/-- An unsubscription that fails is only logged. -/
def unsubscribeGroup (g : String) : ConnM Unit := do
  let _ ← (.perform (.unsubscribe (broadcastTopic g)) : ConnM Unit).attempt

def subscribeGroup (g : String) : ConnM Unit :=
  Prog.tryCatch (.perform (.subscribe (broadcastTopic g))) fun e ↦
    throw ("subscribe " ++ broadcastTopic g ++ ": " ++ e)

/-- Replaces the broadcast subscriptions and persists the change. -/
def updateGroups (groups : List String) (configPath : String) : ConnM Unit := do
  let previous ← .perform (.swapGroups groups)
  previous.forM fun g ↦ if g ∈ groups then pure () else unsubscribeGroup g
  groups.forM fun g ↦ if g ∈ previous then pure () else subscribeGroup g
  .perform (.setConfigGroups groups)
  if configPath = "" then return
  else Prog.tryCatch (.perform .saveConfig) fun e ↦ throw ("persist groups: " ++ e)

/-! ## What a call achieves -/

/-- The connection is subscribed to the broadcasts of the groups. -/
def Conn.Subscribed (s : Conn) (groups : List String) : Prop :=
  ∀ g ∈ groups, broadcastTopic g ∈ s.topics

/-- What is on record of the groups is subscribed. -/
def Conn.Vouches (s : Conn) (groups : List String) : Prop :=
  ∀ g ∈ groups, g ∈ s.groups → broadcastTopic g ∈ s.topics

section Update

variable {adm : Admits ConnOp String Conn} {groups previous : List String} {s : Conn}

/-- The groups that stay keep their subscriptions. -/
theorem wp_unsubscribeGroups (groups previous : List String) {s₀ : Conn} :
    wp connServer adm (fun _ _ _ ↦ True)
      (fun r t ↦ r = .ok () ∧
        ∀ g ∈ groups, broadcastTopic g ∈ t.topics ↔ broadcastTopic g ∈ s₀.topics)
      (previous.forM fun g ↦ if g ∈ groups then pure () else unsubscribeGroup g) s₀ := by
  refine wp_forM (I := fun _ t ↦
    ∀ g ∈ groups, broadcastTopic g ∈ t.topics ↔ broadcastTopic g ∈ s₀.topics) previous ?_ ?_ ?_
  · intro g' rest t ht
    split
    · exact ht
    · rename_i hg'
      rw [unsubscribeGroup, wp_bind, wp_attempt, wp_perform]
      refine ⟨trivial, fun f _ g hg ↦ ?_⟩
      have hne : broadcastTopic g ≠ broadcastTopic g' := fun heq ↦
        hg' (broadcastTopic_inj heq ▸ hg)
      rw [← ht g hg]
      cases f <;> simp [connServer, Conn.serve, hne]
  · exact fun t ht ↦ ⟨rfl, ht⟩
  · exact fun g _ ↦ Iff.rfl

/-- The new groups are subscribed when the loop ends without an error, and those that were on
record have the subscriptions they had. -/
theorem wp_subscribeGroups (groups previous : List String) {s₀ : Conn} :
    wp connServer adm (fun _ _ _ ↦ True)
      (fun r t ↦ r = .ok () → ∀ g ∈ groups,
        broadcastTopic g ∈ t.topics ↔ g ∉ previous ∨ broadcastTopic g ∈ s₀.topics)
      (groups.forM fun g ↦ if g ∈ previous then pure () else subscribeGroup g) s₀ := by
  refine wp_forM (I := fun rest t ↦
    (∀ g ∈ previous, broadcastTopic g ∈ t.topics ↔ broadcastTopic g ∈ s₀.topics) ∧
      ∀ g ∈ groups, g ∈ rest ∨ g ∈ previous ∨ broadcastTopic g ∈ t.topics) groups ?_ ?_ ?_
  · rintro g' rest t ⟨hold, hnew⟩
    split
    · rename_i hg'
      refine ⟨hold, fun g hg ↦ ?_⟩
      rcases hnew g hg with hmem | h
      · rcases List.mem_cons.mp hmem with rfl | hmem
        · exact .inr (.inl hg')
        · exact .inl hmem
      · exact .inr h
    · rename_i hg'
      rw [subscribeGroup, wp_tryCatch, wp_perform]
      refine ⟨trivial, fun f _ ↦ ?_⟩
      cases f with
      | refused e => exact fun h ↦ by cases h
      | unanswered e => exact fun h ↦ by cases h
      | served =>
          refine ⟨fun g hg ↦ ?_, fun g hg ↦ ?_⟩
          · have hne : broadcastTopic g ≠ broadcastTopic g' := fun heq ↦
              hg' (broadcastTopic_inj heq ▸ hg)
            rw [← hold g hg]
            simp [connServer, Conn.serve, hne]
          · rcases hnew g hg with hmem | hprev | htopic
            · rcases List.mem_cons.mp hmem with rfl | hmem
              · exact .inr (.inr List.mem_cons_self)
              · exact .inl hmem
            · exact .inr (.inl hprev)
            · exact .inr (.inr (List.mem_cons_of_mem _ htopic))
  · rintro t ⟨hold, hnew⟩ - g hg
    by_cases hprev : g ∈ previous
    · simp [hprev, hold g hprev]
    · have htopic := (hnew g hg).resolve_left List.not_mem_nil |>.resolve_left hprev
      simp [hprev, htopic]
  · exact ⟨fun g _ ↦ Iff.rfl, fun g hg ↦ .inl hg⟩

/-- After a call that returns nil a group is subscribed unless it was on record and not
subscribed before. -/
theorem wp_updateGroups (groups : List String) (configPath : String) (s : Conn) :
    wp connServer connFates (fun _ _ _ ↦ True)
      (fun r t ↦ r = .ok () → ∀ g ∈ groups,
        broadcastTopic g ∈ t.topics ↔ g ∉ s.groups ∨ broadcastTopic g ∈ s.topics)
      (updateGroups groups configPath) s := by
  refine wp_await trivial (fun _ ↦ ?_) (fun _ h ↦ by cases h) fun _ h ↦ by cases h
  have hserve : connServer.serve (.swapGroups groups) s = (.ok s.groups, { s with groups }) := rfl
  rw [hserve, Prog.ofExcept_ok, Prog.pure_bind]
  refine (wp_bind _ _ _).mpr (wp_mono (wp_unsubscribeGroups groups s.groups) ?_)
  rintro _ t ⟨rfl, hkept⟩
  refine (wp_bind _ _ _).mpr (wp_mono (wp_subscribeGroups groups s.groups) ?_)
  rintro (e | ⟨⟩) u hu
  · exact fun h ↦ by cases h
  have hsub : ∀ g ∈ groups,
      broadcastTopic g ∈ u.topics ↔ g ∉ s.groups ∨ broadcastTopic g ∈ s.topics := fun g hg ↦ by
    rw [hu rfl g hg, hkept g hg]
  refine wp_await trivial (fun _ ↦ ?_) (fun _ h ↦ by cases h) fun _ h ↦ by cases h
  split
  · exact fun _ ↦ hsub
  · refine (wp_tryCatch _ _ _).mpr ((wp_perform _ _).mpr ⟨trivial, fun f _ ↦ ?_⟩)
    cases f with
    | served => exact fun _ ↦ hsub
    | refused e => exact fun h ↦ by cases h
    | unanswered e => exact fun h ↦ by cases h

theorem wp_subscribeGroups_served (groups previous : List String) {s₀ : Conn} :
    wp connServer noFailure (fun _ _ _ ↦ True) (fun r _ ↦ r = .ok ())
      (groups.forM fun g ↦ if g ∈ previous then pure () else subscribeGroup g) s₀ := by
  refine wp_forM (I := fun _ _ ↦ True) groups ?_ (fun _ _ ↦ rfl) trivial
  intro g rest t _
  split
  · trivial
  · rw [subscribeGroup, wp_tryCatch, wp_perform]
    refine ⟨trivial, ?_⟩
    rintro _ rfl
    trivial

/-- A call for which nothing fails returns nil. -/
theorem updateGroups_served (groups : List String) (configPath : String) (s : Conn) :
    ∃ t, Eval connServer connFates (updateGroups groups configPath) s (.ok ()) t := by
  have hok : wp connServer noFailure (fun _ _ _ ↦ True) (fun r _ ↦ r = .ok ())
      (updateGroups groups configPath) s := by
    refine wp_await_served trivial rfl ((wp_bind _ _ _).mpr
      (wp_mono (wp_unsubscribeGroups groups s.groups) ?_))
    rintro _ t ⟨rfl, -⟩
    refine (wp_bind _ _ _).mpr (wp_mono (wp_subscribeGroups_served groups s.groups) ?_)
    rintro _ u rfl
    refine wp_await_served trivial rfl ?_
    split
    · rfl
    · refine (wp_tryCatch _ _ _).mpr ((wp_perform _ _).mpr ⟨trivial, ?_⟩)
      rintro _ rfl
      rfl
  have hrun := Eval.of_run_served (S := connServer) (updateGroups groups configPath) s
  have hresult := hrun.of_wp hok
  rw [hresult] at hrun
  refine ⟨_, hrun.mono ?_⟩
  rintro β op f t rfl
  cases op <;> trivial

end Update

/-! ## A connection and its calls -/

/-- A call that has returned. -/
structure UpdateCall where
  before : Conn
  groups : List String
  result : Except String Unit
  after : Conn

/-- A connection with the calls on it so far: it starts with the groups that are on record from
earlier connections, and anything may fail at any time. -/
inductive CallHistory (deviceID : String) : Conn → List UpdateCall → Prop
  | connect {groups cfgGroups savedGroups : List String} {r : Except String Unit} {s : Conn}
      (h : Eval connServer connFates (onConnect deviceID) ⟨groups, cfgGroups, savedGroups, []⟩
        r s) :
      CallHistory deviceID s []
  | update {s t : Conn} {calls : List UpdateCall} {groups : List String} {configPath : String}
      {r : Except String Unit} (h : CallHistory deviceID s calls)
      (hcall : Eval connServer connFates (updateGroups groups configPath) s r t) :
      CallHistory deviceID t (calls ++ [⟨s, groups, r, t⟩])

/-- The next call on a connection leaves its groups subscribed whenever it returns nil, exactly
if those of them that are on record are subscribed; so all calls on a connection that find this
do. -/
theorem updateGroups_subscribes {deviceID : String} {s : Conn} {calls : List UpdateCall}
    (h : CallHistory deviceID s calls) :
    (∀ groups configPath,
      (∀ t, Eval connServer connFates (updateGroups groups configPath) s (.ok ()) t →
        t.Subscribed groups) ↔ s.Vouches groups) ∧
      ((∀ c ∈ calls, c.before.Vouches c.groups) →
        ∀ c ∈ calls, c.result = .ok () → c.after.Subscribed c.groups) := by
  have hnext : ∀ (s : Conn) groups configPath,
      (∀ t, Eval connServer connFates (updateGroups groups configPath) s (.ok ()) t →
        t.Subscribed groups) ↔ s.Vouches groups := by
    intro s groups configPath
    constructor
    · intro hall g hg hrecord
      obtain ⟨t, ht⟩ := updateGroups_served groups configPath s
      have hsub := (ht.of_wp (wp_updateGroups groups configPath s) rfl g hg).mp (hall t ht g hg)
      exact hsub.resolve_left (not_not_intro hrecord)
    · intro hvouches t ht g hg
      rw [ht.of_wp (wp_updateGroups groups configPath s) rfl g hg]
      exact Classical.or_iff_not_imp_left.mpr fun hrecord ↦ hvouches g hg (not_not.mp hrecord)
  refine ⟨hnext s, ?_⟩
  induction h with
  | connect => exact fun _ c hc ↦ absurd hc List.not_mem_nil
  | @update s t calls groups configPath r _ hcall ih =>
      intro hvouches
      rw [List.forall_mem_append, List.forall_mem_singleton] at hvouches ⊢
      refine ⟨ih hvouches.1, fun hr ↦ ?_⟩
      obtain rfl : r = .ok () := hr
      exact (hnext s groups configPath).mpr hvouches.2 t hcall

/-- Subscriptions of one topic fail, and nothing else does. -/
def deafTo (topic : String) (β : Type) : ConnOp β → Fate String
  | .subscribe topic' => if topic' = topic then .refused "timeout" else .served
  | _ => .served

theorem connFates_deafTo (topic : String) (β : Type) (op : ConnOp β) (f : Fate String) (s : Conn)
    (h : given (deafTo topic) β op f s) : connFates β op f s := by
  cases h
  cases op <;> trivial

/-- The subscription fails once; the next push of the same group finds it on record, returns nil
and does not try again. -/
theorem updateGroups_pretends :
    ¬ ∀ (deviceID : String) (s : Conn) (calls : List UpdateCall), CallHistory deviceID s calls →
      ∀ c ∈ calls, c.result = .ok () → c.after.Subscribed c.groups := by
  intro h
  have hconnect : CallHistory "dev-1" ⟨[], [], [], [commandTopic "dev-1"]⟩ [] :=
    .connect ((Eval.runBy (onConnect "dev-1") ⟨[], [], [], []⟩).mono (connFates_deafTo ""))
  have hfails : CallHistory "dev-1" ⟨["g"], [], [], [commandTopic "dev-1"]⟩ _ :=
    .update hconnect ((Eval.runBy (updateGroups ["g"] "") _).mono
      (connFates_deafTo (broadcastTopic "g")))
  have hagain : CallHistory "dev-1" ⟨["g"], ["g"], [], [commandTopic "dev-1"]⟩ _ :=
    .update hfails ((Eval.runBy (updateGroups ["g"] "") _).mono (connFates_deafTo ""))
  have hsub := h _ _ _ hagain _ (List.mem_append_right _ List.mem_cons_self) rfl
  exact absurd (hsub "g" List.mem_cons_self) (by decide)

/-- A second group comes to the one that is subscribed on connect. -/
theorem updateGroups_subscribes_second : ∃ s calls, CallHistory "dev-1" s calls ∧
    calls.length = 1 ∧ ∀ c ∈ calls, c.groups = ["g", "h"] ∧ c.result = .ok () ∧
      c.after.Subscribed c.groups := by
  have hconnect : CallHistory "dev-1"
      ⟨["g"], ["g"], ["g"], [broadcastTopic "g", commandTopic "dev-1"]⟩ [] :=
    .connect ((Eval.runBy (onConnect "dev-1") ⟨["g"], ["g"], ["g"], []⟩).mono (connFates_deafTo ""))
  have hcall : CallHistory "dev-1" ⟨["g", "h"], ["g", "h"], ["g", "h"],
      [broadcastTopic "h", broadcastTopic "g", commandTopic "dev-1"]⟩ _ :=
    .update hconnect ((Eval.runBy (updateGroups ["g", "h"] "/etc/zenstier.json") _).mono
      (connFates_deafTo ""))
  refine ⟨_, _, hcall, rfl, fun c hc ↦ ?_⟩
  have hsub := (updateGroups_subscribes hcall).2 ?_ c hc
  · obtain rfl := List.mem_singleton.mp hc
    exact ⟨rfl, rfl, hsub rfl⟩
  · intro c hc
    obtain rfl := List.mem_singleton.mp hc
    intro g _ hrecord
    obtain rfl := List.mem_singleton.mp hrecord
    exact List.mem_cons_self

end Zenstier.Agent
