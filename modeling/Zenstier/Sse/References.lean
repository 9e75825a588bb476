import Zenstier.Concurrent.Pool
import Zenstier.Sse.Bus

/-!
# Reference counts on the bus

The streams of a process share its connection to Redis.  Each holds the channels that it has
passed to `subscribe`, until it invokes the function that it was given; the route does this from
`cleanup`, which looks at `closed`, and from `cancel`, which does not.  The bus keeps one number
for each channel, and takes one off whenever such a function is invoked.
-/

namespace Zenstier

open Store Concurrent

/-! ## The connection -/

/-- What a command makes of the channels that Redis forwards. -/
def BusCommand.run (subscribed : List String) : BusCommand → List String
  | .subscribe channels => subscribed ++ channels
  | .unsubscribe channels => subscribed.filter (· ∉ channels)

namespace Bus

variable {b b' : Bus}

/-- The channels that Redis forwards once it has executed the commands that have been sent. -/
def settled (b : Bus) : List String := b.commands.foldl BusCommand.run b.subscribed

theorem settled_execute (h : b.execute = some b') : b'.settled = b.settled := by
  unfold execute at h
  split at h
  · cases h
  · rename_i channels commands hcommands
    cases h
    rw [settled, settled, hcommands]
    rfl
  · rename_i channels commands hcommands
    cases h
    rw [settled, settled, hcommands]
    rfl

theorem mem_settled_subscribe (b : Bus) (channels : List String) (c : String) :
    c ∈ (b.subscribe channels).settled ↔
      c ∈ b.settled ∨ c ∈ (channels.foldl addRef (b.refs, [])).2 := by
  unfold subscribe settled
  dsimp only
  split
  · rename_i hfresh
    rw [hfresh]
    simp
  · rw [List.foldl_append]
    exact List.mem_append

theorem mem_settled_unsubscribe (b : Bus) (channels : List String) (c : String) :
    c ∈ (b.unsubscribe channels).settled ↔
      c ∈ b.settled ∧ c ∉ (channels.foldl dropRef (b.refs, [])).2 := by
  unfold unsubscribe settled
  dsimp only
  split
  · rename_i hgone
    rw [hgone]
    simp
  · rw [List.foldl_append, List.foldl_cons, List.foldl_nil, BusCommand.run, List.mem_filter,
      decide_eq_true_eq]

theorem mem_settled_ready (b : Bus) (c : String) :
    c ∈ b.ready.settled ↔ (b.refs.find? c).isSome := by
  have hkeys : b.ready.settled = b.refs.entries.map Prod.fst := by
    unfold ready settled
    dsimp only
    split
    · rename_i hnil
      rw [hnil]
      rfl
    · exact List.nil_append _
  rw [hkeys, Option.isSome_iff_exists]
  simp only [List.mem_map, Prod.exists, Table.find?_eq_some, exists_and_right, exists_eq_right]

/-! ## What the bus counts -/

/-- The counts are `n`; a channel that nobody listens on has none. -/
def Counts (refs : Table String Nat) (n : String → Nat) : Prop :=
  ∀ c, refs.find? c = if n c = 0 then none else some (n c)

variable {refs : Table String Nat} {n : String → Nat}

/-- A lookup that takes `m` for a channel without a count. -/
theorem Counts.getD (h : Counts refs n) (c : String) (m : Nat) :
    (refs.find? c).getD m = if n c = 0 then m else n c := by
  rw [h c]
  split <;> rfl

theorem Counts.addRef (h : Counts refs n) (fresh : List String) (c : String) :
    Counts (addRef (refs, fresh) c).1 (fun c' ↦ n c' + if c' = c then 1 else 0) := by
  intro c'
  simp only [Bus.addRef, Table.find?_put, h.getD]
  by_cases hc : c' = c
  · subst hc
    split <;> simp_all
  · simp [hc, h c']

theorem mem_addRef (h : Counts refs n) (fresh : List String) (c c' : String) :
    c' ∈ (addRef (refs, fresh) c).2 ↔ c' ∈ fresh ∨ c' = c ∧ n c = 0 := by
  simp only [addRef, h.getD]
  by_cases hc : n c = 0
  · simp [hc]
  · simp [hc]

/-- What is left of a count after taking one off; where there is no count nothing is left. -/
theorem Counts.pred (h : Counts refs n) (c : String) : (refs.find? c).getD 1 - 1 = n c - 1 := by
  rw [h.getD]
  split <;> omega

theorem Counts.dropRef (h : Counts refs n) (gone : List String) (c : String) :
    Counts (dropRef (refs, gone) c).1 (fun c' ↦ n c' - if c' = c then 1 else 0) := by
  intro c'
  simp only [Bus.dropRef, h.pred]
  by_cases hc : c' = c
  · subst hc
    split
    · rename_i hlast
      simp [hlast]
    · rename_i hlast
      simp [hlast]
  · split
    · simp [hc, h c']
    · simp [hc, h c']

theorem mem_dropRef (h : Counts refs n) (gone : List String) (c c' : String) :
    c' ∈ (dropRef (refs, gone) c).2 ↔ c' ∈ gone ∨ c' = c ∧ n c ≤ 1 := by
  simp only [dropRef, h.pred]
  have hle : n c ≤ 1 ↔ n c - 1 = 0 := by omega
  rw [hle]
  split
  · rename_i hlast
    simp [hlast]
  · rename_i hlast
    simp [hlast]

/-- `subscribe` counts every channel as often as it is listed; the ones that are fresh had no
listener. -/
theorem Counts.foldl_addRef (h : Counts refs n) (fresh channels : List String) :
    Counts (channels.foldl Bus.addRef (refs, fresh)).1 (fun c ↦ n c + channels.count c) ∧
    ∀ c, c ∈ (channels.foldl Bus.addRef (refs, fresh)).2 ↔
      c ∈ fresh ∨ c ∈ channels ∧ n c = 0 := by
  induction channels generalizing refs n fresh with
  | nil => exact ⟨by simpa using h, by simp⟩
  | cons c₀ channels ih =>
      obtain ⟨hcounts, hfresh⟩ := ih (h.addRef fresh c₀) (Bus.addRef (refs, fresh) c₀).2
      refine ⟨?_, fun c ↦ ?_⟩
      · have hn : (fun c ↦ n c + (if c = c₀ then 1 else 0) + channels.count c) =
            fun c ↦ n c + (c₀ :: channels).count c := by
          funext c
          simp only [List.count_cons, beq_iff_eq, eq_comm (a := c)]
          omega
        rw [List.foldl_cons, ← hn]
        exact hcounts
      · rw [List.foldl_cons, hfresh c, mem_addRef h]
        by_cases hc : c = c₀
        · subst hc
          simp
        · simp [hc]

/-- `unsubscribe` takes the listed channels off again, as far as there is something to take off. -/
theorem Counts.foldl_dropRef (h : Counts refs n) (gone channels : List String) :
    Counts (channels.foldl Bus.dropRef (refs, gone)).1 (fun c ↦ n c - channels.count c) ∧
    ∀ c, c ∈ (channels.foldl Bus.dropRef (refs, gone)).2 ↔
      c ∈ gone ∨ c ∈ channels ∧ n c ≤ channels.count c := by
  induction channels generalizing refs n gone with
  | nil => exact ⟨by simpa using h, by simp⟩
  | cons c₀ channels ih =>
      obtain ⟨hcounts, hgone⟩ := ih (h.dropRef gone c₀) (Bus.dropRef (refs, gone) c₀).2
      refine ⟨?_, fun c ↦ ?_⟩
      · have hn : (fun c ↦ n c - (if c = c₀ then 1 else 0) - channels.count c) =
            fun c ↦ n c - (c₀ :: channels).count c := by
          funext c
          simp only [List.count_cons, beq_iff_eq, eq_comm (a := c)]
          omega
        rw [List.foldl_cons, ← hn]
        exact hcounts
      · rw [List.foldl_cons, hgone c, mem_dropRef h]
        by_cases hc : c = c₀
        · subst hc
          have hor : (n c ≤ 1 ∨ c ∈ channels ∧ n c ≤ channels.count c + 1) ↔
              n c ≤ channels.count c + 1 := by
            have hmem : c ∈ channels ↔ 0 < channels.count c := List.count_pos_iff.symm
            rw [hmem]
            omega
          simp [or_assoc, hor]
        · simp [hc, Ne.symm hc]

/-- The channels of the connection are the ones that are counted. -/
structure Tracks (b : Bus) (n : String → Nat) : Prop where
  counts : Counts b.refs n
  settled : ∀ c, c ∈ b.settled ↔ 0 < n c

theorem Tracks.subscribe (h : Tracks b n) (channels : List String) :
    Tracks (b.subscribe channels) (fun c ↦ n c + channels.count c) := by
  obtain ⟨hcounts, hfresh⟩ := h.counts.foldl_addRef [] channels
  refine ⟨hcounts, fun c ↦ ?_⟩
  have hmem : c ∈ channels ↔ 0 < channels.count c := List.count_pos_iff.symm
  rw [mem_settled_subscribe, hfresh c, h.settled c, hmem]
  simp only [List.not_mem_nil, false_or]
  omega

/-- Whoever invokes it, and however often: `unsubscribe` takes off what it finds. -/
theorem Tracks.unsubscribe (h : Tracks b n) (channels : List String) :
    Tracks (b.unsubscribe channels) (fun c ↦ n c - channels.count c) := by
  obtain ⟨hcounts, hgone⟩ := h.counts.foldl_dropRef [] channels
  refine ⟨hcounts, fun c ↦ ?_⟩
  have hmem : c ∈ channels ↔ 0 < channels.count c := List.count_pos_iff.symm
  rw [mem_settled_unsubscribe, hgone c, h.settled c, hmem]
  simp only [List.not_mem_nil, false_or]
  omega

theorem Tracks.execute (h : Tracks b n) (hb : b.execute = some b') : Tracks b' n := by
  refine ⟨?_, fun c ↦ by rw [settled_execute hb, h.settled c]⟩
  have hrefs : b'.refs = b.refs := by
    unfold Bus.execute at hb
    split at hb <;> cases hb <;> rfl
  exact hrefs ▸ h.counts

theorem Tracks.ready (h : Tracks b n) : Tracks b.ready n := by
  refine ⟨h.counts, fun c ↦ ?_⟩
  rw [mem_settled_ready, h.counts c]
  split <;> simp <;> omega

end Bus

/-! ## Subscriptions -/

/-- A call of `subscribe`. -/
structure Subscription where
  channels : List String
  /-- The function that it has returned has not been invoked. -/
  active : Bool := true
deriving DecidableEq, Repr

/-- How often it listens on a channel. -/
def Subscription.listens (x : Subscription) (c : String) : Nat :=
  if x.active then x.channels.count c else 0

/-- The bus with all calls of `subscribe`. -/
structure BusProcess where
  bus : Bus := {}
  subscriptions : List Subscription := []

inductive BusProcessEvent
  | subscribe (channels : List String)
  /-- The function that the `i`th call of `subscribe` has returned is invoked. -/
  | unsubscribe (i : Nat)
  /-- Redis executes a command. -/
  | execute
  /-- The connection is made again. -/
  | ready
deriving DecidableEq, Repr

namespace BusProcess

def step (p : BusProcess) : BusProcessEvent → Option BusProcess
  | .subscribe channels =>
      some ⟨p.bus.subscribe channels, p.subscriptions ++ [⟨channels, true⟩]⟩
  | .unsubscribe i => p.subscriptions[i]?.map fun x ↦
      ⟨p.bus.unsubscribe x.channels, p.subscriptions.set i { x with active := false }⟩
  | .execute => p.bus.execute.map fun bus ↦ { p with bus }
  | .ready => some { p with bus := p.bus.ready }

/-- A subscription that has not been unsubscribed contains the channel. -/
def Listened (p : BusProcess) (c : String) : Prop :=
  ∃ x ∈ p.subscriptions, x.active = true ∧ c ∈ x.channels

instance (p : BusProcess) (c : String) : Decidable (p.Listened c) := by
  unfold Listened
  infer_instance

/-- A function that is invoked again finds nobody on its channels. -/
def Harmless (p : BusProcess) : BusProcessEvent → Prop
  | .unsubscribe i => ∀ x ∈ p.subscriptions[i]?, x.active = false → ∀ c ∈ x.channels, ¬ p.Listened c
  | .subscribe _ | .execute | .ready => True

instance (p : BusProcess) : ∀ e, Decidable (p.Harmless e)
  | .unsubscribe i =>
      inferInstanceAs (Decidable (∀ x ∈ p.subscriptions[i]?, x.active = false →
        ∀ c ∈ x.channels, ¬ p.Listened c))
  | .subscribe _ | .execute | .ready => .isTrue trivial

/-- How many listeners a channel has. -/
def listeners (p : BusProcess) (c : String) : Nat :=
  (p.subscriptions.map (·.listens c)).sum

theorem listeners_pos (p : BusProcess) (c : String) : 0 < p.listeners c ↔ p.Listened c := by
  rw [listeners, List.sum_pos_iff_exists_pos_nat]
  simp only [List.mem_map, Listened, Subscription.listens, exists_exists_and_eq_and]
  refine exists_congr fun x ↦ and_congr_right fun _ ↦ ?_
  cases x.active <;> simp

/-- One entry of a sum is taken out. -/
theorem sum_set (l : List Nat) {i k : Nat} (hk : l[i]? = some k) : (l.set i 0).sum + k = l.sum := by
  induction l generalizing i with
  | nil => cases hk
  | cons k₀ l ih =>
      cases i with
      | zero =>
          cases hk
          simp [Nat.add_comm]
      | succ i =>
          have := ih hk
          simp only [List.set_cons_succ, List.sum_cons]
          omega

variable {p q : BusProcess}

theorem listeners_unsubscribe {i : Nat} {x : Subscription} (hx : p.subscriptions[i]? = some x)
    (c : String) :
    (⟨p.bus.unsubscribe x.channels, p.subscriptions.set i { x with active := false }⟩ :
      BusProcess).listeners c + x.listens c = p.listeners c := by
  have hmap := sum_set (p.subscriptions.map (·.listens c)) (i := i) (k := x.listens c)
    (by rw [List.getElem?_map, hx]; rfl)
  rw [listeners, listeners, ← hmap, List.map_set]
  rfl

/-- The bus counts the listeners. -/
theorem tracks_step {e : BusProcessEvent} (h : p.bus.Tracks p.listeners) (he : p.Harmless e)
    (hstep : p.step e = some q) : q.bus.Tracks q.listeners := by
  cases e with
  | subscribe channels =>
      cases hstep
      have hn : (fun c ↦ p.listeners c + channels.count c) =
          BusProcess.listeners
            ⟨p.bus.subscribe channels, p.subscriptions ++ [⟨channels, true⟩]⟩ := by
        funext c
        simp [listeners, Subscription.listens]
      exact hn ▸ h.subscribe channels
  | unsubscribe i =>
      obtain ⟨x, hx, rfl⟩ := Option.map_eq_some_iff.mp hstep
      have hn : (fun c ↦ p.listeners c - x.channels.count c) = (⟨p.bus.unsubscribe x.channels,
          p.subscriptions.set i { x with active := false }⟩ : BusProcess).listeners := by
        funext c
        rw [← listeners_unsubscribe hx c]
        cases hactive : x.active with
        | true => simp [Subscription.listens, hactive]
        | false =>
            by_cases hc : c ∈ x.channels
            · have hzero := mt (p.listeners_pos c).mp (he x hx hactive c hc)
              have := listeners_unsubscribe hx c
              omega
            · simp [Subscription.listens, hactive, List.count_eq_zero_of_not_mem hc]
      exact hn ▸ h.unsubscribe x.channels
  | execute =>
      obtain ⟨bus, hbus, rfl⟩ := Option.map_eq_some_iff.mp hstep
      exact h.execute hbus
  | ready =>
      cases hstep
      exact h.ready

/-- A function that is invoked again takes the counts of the others: a channel with no more
listeners than it takes off is lost. -/
theorem not_settled_unsubscribe {i : Nat} {x : Subscription} (h : p.bus.Tracks p.listeners)
    {c : String} (hc : p.listeners c ≤ x.channels.count c)
    (hstep : p.step (.unsubscribe i) = some q) (hx : p.subscriptions[i]? = some x) :
    c ∉ q.bus.settled := by
  obtain ⟨y, hy, rfl⟩ := Option.map_eq_some_iff.mp hstep
  cases hx.symm.trans hy
  rw [(h.unsubscribe x.channels).settled c]
  omega

/-- In every state that calls reach whose repetitions are harmless, the connection has the
channels that somebody listens on. -/
theorem subscribed_iff_listened {p : BusProcess} (h : Reach step Harmless {} p) :
    ∀ c, c ∈ p.bus.settled ↔ p.Listened c := by
  intro c
  have htracks : p.bus.Tracks p.listeners :=
    h.invariant (I := fun p ↦ p.bus.Tracks p.listeners)
      ⟨fun _ ↦ rfl, fun _ ↦ by simp [Bus.settled, listeners]⟩
      fun _ _ _ hp he hstep ↦ tracks_step hp he hstep
  rw [htracks.settled c, p.listeners_pos]

/-- A stream whose clean-up is run again takes its channel from another stream. -/
theorem listened_not_subscribed :
    ¬ ∀ p : BusProcess, Reach step (fun _ _ ↦ True) {} p →
      ∀ c, c ∈ p.bus.settled ↔ p.Listened c := by
  intro hall
  obtain ⟨p, hp, hlost⟩ : ∃ p, Reach step (fun _ _ ↦ True) {} p ∧
      (p.Listened (deviceChannel "d") ∧ deviceChannel "d" ∉ p.bus.settled) :=
    Reach.exists_of_exec [.subscribe [deviceChannel "d"], .subscribe [deviceChannel "d"],
      .unsubscribe 0, .unsubscribe 0] (by decide +kernel)
  exact hlost.2 ((hall p hp _).mpr hlost.1)

/-- Two streams of one device, of which one has ended twice, the second time after the other. -/
theorem subscribed_iff_listened_ended :
    ∃ p : BusProcess, p.subscriptions.length = 2 ∧
      ∀ c, c ∈ p.bus.settled ↔ p.Listened c := by
  obtain ⟨p, hp, hlength⟩ : ∃ p, Reach step Harmless {} p ∧ p.subscriptions.length = 2 :=
    Reach.exists_of_exec [.subscribe [deviceChannel "d"], .subscribe [deviceChannel "d"],
      .unsubscribe 0, .unsubscribe 1, .unsubscribe 0] (by decide +kernel)
  exact ⟨p, hlength, subscribed_iff_listened hp⟩

end BusProcess

end Zenstier
