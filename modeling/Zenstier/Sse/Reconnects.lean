import Zenstier.Concurrent.Pool
import Zenstier.Sse.Stream

/-!
# Output across reconnects

Only replayed rows carry an id, and only a request with an id has rows replayed.  So a tab never
has an id to send, and a new connection begins with what happens from then on.  What has been
inserted before it must have come over an earlier connection.
-/

namespace Zenstier

open Concurrent

namespace Site

variable {devices : List String} {s t : Site}

/-- A row of the tab's devices that was inserted after its first connection went live. -/
def Relevant (devices : List String) (s : Site) (row : OutputRow) : Prop :=
  row.deviceId ∈ devices ∧ ∃ n, s.since = some n ∧ row ∈ s.rows.drop n

/-- The tab has been given all rows that were inserted after its first connection went live and
not later than the replay query of a connection that has finished its replay. -/
def Complete (devices : List String) (s : Site) : Prop :=
  ∀ n k, s.since = some n → s.replayed = some k → ∀ row ∈ (s.rows.take k).drop n,
    row.deviceId ∈ devices → row.event ∈ s.received

instance : Decidable (s.Complete devices) :=
  match hn : s.since, hk : s.replayed with
  | some n, some k =>
      decidable_of_iff (∀ row ∈ (s.rows.take k).drop n, row.deviceId ∈ devices →
        row.event ∈ s.received)
        ⟨fun h n' k' hn' hk' ↦ by
          cases hn.symm.trans hn'
          cases hk.symm.trans hk'
          exact h,
          fun h ↦ h n k hn hk⟩
  | none, _ => .isTrue fun _ _ hn' _ ↦ nomatch hn.symm.trans hn'
  | _, none => .isTrue fun _ _ _ hk' ↦ nomatch hk.symm.trans hk'

/-- The tab has a connection that is live. -/
def Live (s : Site) : Prop := ∃ c ∈ s.connection, c.phase = .live

instance : Decidable s.Live := by unfold Live; infer_instance

/-- No output of the tab's devices is in the bus. -/
def Handled (devices : List String) (s : Site) : Prop :=
  ∀ m ∈ s.bus.inbox, m.channel ∈ channels devices → m.event.isChunk = false

instance : Decidable (s.Handled devices) := by unfold Handled; infer_instance

/-- No row of the tab's devices is still to be published, and none is in the bus. -/
def Published (devices : List String) (s : Site) : Prop :=
  (∀ row ∈ s.waiting, row.deviceId ∉ devices) ∧ s.Handled devices

instance : Decidable (s.Published devices) := by unfold Published; infer_instance

/-- Once the tab has been live, output of its devices is inserted only while it is; it is first
published when Redis forwards the channel; and the stream is closed or lost only when no output
is on its way. -/
def Undisturbed (devices : List String) (s : Site) : SiteEvent → Prop
  | .insert row => s.since.isSome → row.deviceId ∈ devices → s.Live
  | .publish row => s.since.isSome → row ∈ s.waiting → row.deviceId ∈ devices →
      deviceChannel row.deviceId ∈ s.bus.subscribed
  | .ready => s.since.isSome → s.Handled devices
  | .close => s.since.isSome → s.Published devices
  | .drop => s.since.isSome → s.Published devices ∧
      ∀ c ∈ s.connection, ∀ f ∈ c.wire, f.event.isChunk = false
  | _ => True

instance (e : SiteEvent) : Decidable (s.Undisturbed devices e) := by
  cases e <;> unfold Undisturbed <;> infer_instance

/-! ## What one step preserves -/

/-- The event is on the wire of the tab's connection. -/
def OnWire (s : Site) (event : SseEvent) : Prop :=
  ∃ c, s.connection = some c ∧ ∃ f ∈ c.wire, f.event = event

/-- The tab has been given the event, or is about to be. -/
def Sent (s : Site) (event : SseEvent) : Prop := event ∈ s.received ∨ s.OnWire event

/-- No id is ever sent, and every relevant row has been given to the tab or is on its way; while
the tab is not live, it is at least on the wire. -/
structure Sound (devices : List String) (s : Site) : Prop where
  noId : s.lastEventId = none
  connection : ∀ c, s.connection = some c → c.cursor = none ∧ (∀ f ∈ c.wire, f.id = none) ∧
    (c.phase = .requested ∧ c.wire = [] ∨ c.phase = .live ∨ c.phase = .closed)
  bounds : (∀ n, s.since = some n → n ≤ s.rows.length) ∧
    ∀ k, s.replayed = some k → k ≤ s.rows.length
  carried : ∀ row, s.Relevant devices row →
    s.Sent row.event ∨ row ∈ s.waiting ∨ row.message ∈ s.bus.inbox
  idle : ¬ s.Live → ∀ row, s.Relevant devices row → s.Sent row.event
  complete : s.Complete devices

theorem sound_start : Sound devices {} where
  noId := rfl
  connection _ h := nomatch h
  bounds := by constructor <;> intro _ h <;> cases h
  carried := by
    rintro row ⟨-, n, hn, -⟩
    cases hn
  idle := by
    rintro - row ⟨-, n, hn, -⟩
    cases hn
  complete := by
    intro n k hn
    cases hn

variable {row : OutputRow} {c : Connection}

theorem Handled.not_mem (h : s.Handled devices) (hdevice : row.deviceId ∈ devices) :
    row.message ∉ s.bus.inbox := fun hrow ↦
  absurd (h _ hrow (List.mem_map_of_mem hdevice)) (by decide : true ≠ false)

theorem Sent.received {event : SseEvent} (h : s.Sent event)
    (hwire : ∀ c, s.connection = some c → ∀ f ∈ c.wire, f.event ≠ event) :
    event ∈ s.received := by
  rcases h with h | ⟨c, hc, f, hf, rfl⟩
  · exact h
  · exact absurd rfl (hwire c hc f hf)

/-- A step of the bus that loses no message. -/
theorem Sound.withBus (h : s.Sound devices) {bus : Bus} {others : List (List String)}
    {orphans : Nat} (hinbox : ∀ m ∈ s.bus.inbox, m ∈ bus.inbox) :
    Sound devices { s with bus, others, orphans } where
  noId := h.noId
  connection := h.connection
  bounds := h.bounds
  carried row hrow := (h.carried row hrow).imp_right fun hway ↦ hway.imp_right (hinbox _)
  idle := h.idle
  complete := h.complete

theorem Sound.insert (h : s.Sound devices)
    (hg : s.since.isSome → row.deviceId ∈ devices → s.Live) :
    Sound devices { s with rows := s.rows ++ [row], waiting := s.waiting ++ [row] } := by
  have hrelevant : ∀ row', Relevant devices
      { s with rows := s.rows ++ [row], waiting := s.waiting ++ [row] } row' →
      s.Relevant devices row' ∨ row' = row ∧ s.Live := by
    rintro row' ⟨hdevice, n, hn, hmem⟩
    replace hmem : row' ∈ (s.rows ++ [row]).drop n := hmem
    rw [List.drop_append_of_le_length (h.bounds.1 n hn)] at hmem
    rcases List.mem_append.mp hmem with hmem | hmem
    · exact .inl ⟨hdevice, n, hn, hmem⟩
    · obtain rfl := List.mem_singleton.mp hmem
      exact .inr ⟨rfl, hg (Option.isSome_of_eq_some hn) hdevice⟩
  have hlength : (s.rows ++ [row]).length = s.rows.length + 1 := List.length_append
  constructor
  · exact h.noId
  · exact h.connection
  · refine ⟨fun n hn ↦ ?_, fun k hk ↦ ?_⟩
    · exact (h.bounds.1 n hn).trans (hlength ▸ Nat.le_succ _)
    · exact (h.bounds.2 k hk).trans (hlength ▸ Nat.le_succ _)
  · intro row' hrow'
    rcases hrelevant row' hrow' with hold | ⟨rfl, -⟩
    · exact (h.carried row' hold).imp_right (Or.imp_left (List.mem_append_left _))
    · exact .inr (.inl (List.mem_append_right _ List.mem_cons_self))
  · intro hlive row' hrow'
    rcases hrelevant row' hrow' with hold | ⟨-, hs⟩
    · exact h.idle hlive row' hold
    · exact absurd hs hlive
  · intro n k hn hk row' hrow' hdevice
    replace hrow' : row' ∈ ((s.rows ++ [row]).take k).drop n := hrow'
    rw [List.take_append_of_le_length (h.bounds.2 k hk)] at hrow'
    exact h.complete n k hn hk row' hrow' hdevice

/-- A row that is published for the first time reaches the bus. -/
theorem Sound.publish (h : s.Sound devices)
    (hg : s.since.isSome → row ∈ s.waiting → row.deviceId ∈ devices →
      deviceChannel row.deviceId ∈ s.bus.subscribed) :
    Sound devices { s with
      waiting := s.waiting.filter (· ≠ row), bus := s.bus.publish row.message } where
  noId := h.noId
  connection := h.connection
  bounds := h.bounds
  carried row' hrow' := by
    rcases h.carried row' hrow' with hsent | hwaiting | hinbox
    · exact .inl hsent
    · by_cases hsame : row' = row
      · subst hsame
        obtain ⟨hdevice, n, hn, -⟩ := hrow'
        have hchannel := hg (Option.isSome_of_eq_some hn) hwaiting hdevice
        exact .inr (.inr (Bus.mem_publish_self hchannel))
      · exact .inr (.inl (List.mem_filter.mpr ⟨hwaiting, decide_eq_true hsame⟩))
    · exact .inr (.inr (Bus.mem_publish hinbox))
  idle := h.idle
  complete := h.complete

/-- A message that a stream takes; one that does not replay has nothing pending. -/
theorem onEvent_of_not_replaying {event : SseEvent}
    (hphase : c.phase = .requested ∧ c.wire = [] ∨ c.phase = .live ∨ c.phase = .closed) :
    c.onEvent event = if c.phase = .live then { c with wire := c.wire ++ [{ event }] } else c := by
  unfold Connection.onEvent
  rcases hphase with ⟨h, -⟩ | h | h <;> rw [h] <;> rfl

/-- What becomes of a connection that does not replay when a message arrives. -/
def heard (devices : List String) (m : BusMessage) (c : Connection) : Connection :=
  if c.phase = .live ∧ m.channel ∈ channels devices then
    { c with wire := c.wire ++ [{ event := m.event }] }
  else c

theorem heard_phase (m : BusMessage) : (heard devices m c).phase = c.phase := by
  unfold heard
  split <;> rfl

theorem heard_cursor (m : BusMessage) : (heard devices m c).cursor = c.cursor := by
  unfold heard
  split <;> rfl

theorem mem_heard {m : BusMessage} {f : SseFrame} (h : f ∈ c.wire) :
    f ∈ (heard devices m c).wire := by
  unfold heard
  split
  · exact List.mem_append_left _ h
  · exact h

theorem eq_of_mem_heard {m : BusMessage} {f : SseFrame} (h : f ∈ (heard devices m c).wire) :
    f ∈ c.wire ∨ c.phase = .live ∧ f = { event := m.event } := by
  unfold heard at h
  split at h
  · rename_i hlive
    exact (List.mem_append.mp h).imp_right fun hf ↦ ⟨hlive.1, List.mem_singleton.mp hf⟩
  · exact .inl h

theorem Sound.arrive_connection (h : s.Sound devices) (m : BusMessage) (inbox : List BusMessage) :
    (s.arrive devices m inbox).connection = s.connection.map (heard devices m) := by
  have hevent : ∀ c, s.connection = some c →
      c.onEvent m.event =
        if c.phase = .live then { c with wire := c.wire ++ [{ event := m.event }] } else c :=
    fun c hc ↦ onEvent_of_not_replaying (h.connection c hc).2.2
  unfold arrive heard
  dsimp only
  by_cases hchannel : m.channel ∈ channels devices
  · rw [if_pos hchannel]
    refine Option.map_congr fun c hc ↦ ?_
    rw [hevent c hc]
    exact if_congr (and_iff_left hchannel).symm rfl rfl
  · rw [if_neg hchannel]
    cases s.connection with
    | none => rfl
    | some c => exact congrArg some (if_neg fun hlive ↦ hchannel hlive.2).symm

theorem Sound.arrive (h : s.Sound devices) {m : BusMessage} {inbox : List BusMessage}
    (hm : s.bus.inbox = m :: inbox) : (s.arrive devices m inbox).Sound devices := by
  have hconn := h.arrive_connection m inbox
  have hlive : (s.arrive devices m inbox).Live ↔ s.Live := by
    unfold Live
    rw [hconn]
    constructor
    · rintro ⟨c', hc', hphase⟩
      obtain ⟨c, hc, rfl⟩ := Option.map_eq_some_iff.mp hc'
      exact ⟨c, hc, heard_phase m ▸ hphase⟩
    · rintro ⟨c, hc, hphase⟩
      exact ⟨_, Option.map_eq_some_iff.mpr ⟨c, hc, rfl⟩, (heard_phase m).trans hphase⟩
  have hsent : ∀ event, s.Sent event → (s.arrive devices m inbox).Sent event := by
    rintro event (hreceived | ⟨c, hc, f, hf, rfl⟩)
    · exact .inl hreceived
    · refine .inr ⟨heard devices m c, ?_, f, mem_heard hf, rfl⟩
      rw [hconn, hc]
      rfl
  constructor
  · exact h.noId
  · intro c' hc'
    rw [hconn] at hc'
    obtain ⟨c, hc, rfl⟩ := Option.map_eq_some_iff.mp hc'
    obtain ⟨hcursor, hids, hphase⟩ := h.connection c hc
    refine ⟨(heard_cursor m).trans hcursor, fun f hf ↦ ?_, ?_⟩
    · rcases eq_of_mem_heard hf with hf | ⟨-, rfl⟩
      · exact hids f hf
      · rfl
    · rw [heard_phase]
      refine hphase.imp_left fun hrequested ↦ ⟨hrequested.1, ?_⟩
      unfold heard
      rw [if_neg, hrequested.2]
      rw [hrequested.1]
      exact fun hlive ↦ nomatch hlive.1
  · exact h.bounds
  · intro row hrow
    rcases h.carried row hrow with hrow' | hwaiting | hinbox
    · exact .inl (hsent _ hrow')
    · exact .inr (.inl hwaiting)
    · rw [hm] at hinbox
      rcases List.mem_cons.mp hinbox with rfl | hinbox
      · left
        by_cases hs : s.Live
        · obtain ⟨c, hc, hphase⟩ := hs
          refine .inr ⟨heard devices row.message c, ?_, { event := row.event }, ?_, rfl⟩
          · rw [hconn, hc]
            rfl
          · have hchannel : row.message.channel ∈ channels devices :=
              List.mem_map_of_mem hrow.1
            unfold heard
            rw [if_pos ⟨hphase, hchannel⟩]
            exact List.mem_append_right _ List.mem_cons_self
        · exact hsent _ (h.idle hs row hrow)
      · exact .inr (.inr hinbox)
  · intro hs row hrow
    exact hsent _ (h.idle (fun hlive' ↦ hs (hlive.mpr hlive')) row hrow)
  · exact h.complete

/-- The tab asks for the stream without an id. -/
theorem Sound.connect (h : s.Sound devices) (hnone : s.connection = none)
    (owned : List (String × DeviceStatus)) :
    Sound devices { s with connection := some { cursor := s.lastEventId, owned } } := by
  have hnotLive : ¬ s.Live := by
    rintro ⟨c, hc, -⟩
    rw [hnone] at hc
    cases hc
  have hreceived : ∀ row, s.Relevant devices row → row.event ∈ s.received := by
    intro row hrow
    refine (h.idle hnotLive row hrow).received fun c hc ↦ ?_
    rw [hnone] at hc
    cases hc
  constructor
  · exact h.noId
  · intro c hc
    cases hc
    exact ⟨h.noId, fun f hf ↦ (nomatch hf), .inl ⟨rfl, rfl⟩⟩
  · exact h.bounds
  · exact fun row hrow ↦ .inl (.inl (hreceived row hrow))
  · exact fun _ row hrow ↦ .inl (hreceived row hrow)
  · exact h.complete

theorem mem_statusFrames {owned : List (String × DeviceStatus)} {f : SseFrame}
    (h : f ∈ statusFrames owned) : f.id = none ∧ f.event.isChunk = false := by
  obtain ⟨d, -, rfl⟩ := List.mem_map.mp h
  exact ⟨rfl, rfl⟩

/-- A connection goes live without a replay: the rows that count have all been received. -/
theorem Sound.finished (h : s.Sound devices) (bus : Bus) (hcursor : c.cursor = none)
    (hphase : c.phase = .live) (hids : ∀ f ∈ c.wire, f.id = none)
    (hpoint : c.point = s.rows.length)
    (hreceived : ∀ row, s.Relevant devices row → row.event ∈ s.received) :
    (({ s with bus } : Site).finished c).Sound devices := by
  have hsince : ∀ n, s.since.or (some s.rows.length) = some n →
      s.since = some n ∨ n = s.rows.length := by
    intro n hn
    cases hs : s.since with
    | none =>
        rw [hs] at hn
        exact .inr (Option.some.inj hn).symm
    | some n' =>
        rw [hs] at hn
        exact .inl hn
  have hrelevant : ∀ row, (({ s with bus } : Site).finished c).Relevant devices row →
      row.event ∈ s.received := by
    rintro row ⟨hdevice, n, hn, hrow⟩
    rcases hsince n hn with hn | rfl
    · exact hreceived row ⟨hdevice, n, hn, hrow⟩
    · replace hrow : row ∈ s.rows.drop s.rows.length := hrow
      rw [List.drop_length] at hrow
      cases hrow
  constructor
  · exact h.noId
  · intro c' hc'
    cases hc'
    exact ⟨hcursor, hids, .inr (.inl hphase)⟩
  · refine ⟨fun n hn ↦ ?_, fun k hk ↦ ?_⟩
    · rcases hsince n hn with hn | rfl
      · exact h.bounds.1 n hn
      · exact Nat.le_refl _
    · cases hk
      exact hpoint.le
  · exact fun row hrow ↦ .inl (.inl (hrelevant row hrow))
  · exact fun hlive ↦ absurd ⟨c, rfl, hphase⟩ hlive
  · intro n k hn hk row hrow hdevice
    obtain rfl : c.point = k := Option.some.inj hk
    replace hrow : row ∈ (s.rows.take c.point).drop n := hrow
    rw [hpoint, List.take_length] at hrow
    exact hrelevant row ⟨hdevice, n, hn, hrow⟩

/-- The stream is started. -/
theorem Sound.start (h : s.Sound devices) (hc : s.connection = some c)
    (hphase : c.phase = .requested) : (s.start devices c).Sound devices := by
  obtain ⟨hcursor, -, hwire⟩ := h.connection c hc
  replace hwire : c.wire = [] := by
    rcases hwire with hwire | hwire | hwire
    · exact hwire.2
    · exact absurd (hphase.symm.trans hwire) (by decide)
    · exact absurd (hphase.symm.trans hwire) (by decide)
  have hnotLive : ¬ s.Live := by
    rintro ⟨c', hc', hlive⟩
    rw [hc] at hc'
    cases hc'
    exact absurd (hphase.symm.trans hlive) (by decide)
  have hreceived : ∀ row, s.Relevant devices row → row.event ∈ s.received := by
    intro row hrow
    refine (h.idle hnotLive row hrow).received fun c' hc' f hf ↦ ?_
    rw [hc] at hc'
    cases hc'
    rw [hwire] at hf
    cases hf
  unfold Site.start
  dsimp only
  rw [hcursor]
  refine h.finished _ rfl rfl (fun f hf ↦ ?_) rfl hreceived
  replace hf : f ∈ c.wire ++ [] ++ statusFrames c.owned ++ [] := hf
  rw [hwire, List.nil_append, List.nil_append, List.append_nil] at hf
  exact (mem_statusFrames hf).1

/-- The stream is closed when there is nothing left that it could be given. -/
theorem Sound.close (h : s.Sound devices) (hc : s.connection = some c)
    (hg : s.since.isSome → s.Published devices) :
    Sound devices { s with
      bus := s.bus.unsubscribe (channels devices)
      connection := some { c with phase := .closed } } := by
  have hsent : ∀ row, s.Relevant devices row →
      Sent { s with
        bus := s.bus.unsubscribe (channels devices)
        connection := some { c with phase := .closed } } row.event := by
    intro row hrow
    obtain ⟨hdevice, n, hn, -⟩ := id hrow
    obtain ⟨hwaiting, hinbox⟩ := hg (Option.isSome_of_eq_some hn)
    rcases h.carried row hrow with (hreceived | ⟨c', hc', hwire⟩) | hrow' | hrow'
    · exact .inl hreceived
    · rw [hc] at hc'
      cases hc'
      exact .inr ⟨_, rfl, hwire⟩
    · exact absurd hdevice (hwaiting row hrow')
    · exact (hinbox.not_mem hdevice hrow').elim
  obtain ⟨hcursor, hids, -⟩ := h.connection c hc
  constructor
  · exact h.noId
  · intro c' hc'
    cases hc'
    exact ⟨hcursor, hids, .inr (.inr rfl)⟩
  · exact h.bounds
  · exact fun row hrow ↦ .inl (hsent row hrow)
  · exact fun _ row hrow ↦ hsent row hrow
  · exact h.complete

/-- A frame reaches the browser, which has still no id to send. -/
theorem Sound.deliver (h : s.Sound devices) (hc : s.connection = some c) {f : SseFrame}
    {wire : List SseFrame} (hwire : c.wire = f :: wire) :
    (s.deliver c f wire).Sound devices := by
  obtain ⟨hcursor, hids, hphase⟩ := h.connection c hc
  have hlive : (s.deliver c f wire).Live ↔ s.Live := by
    unfold Live
    rw [hc]
    constructor
    · rintro ⟨c', hc', hlive⟩
      cases hc'
      exact ⟨c, rfl, hlive⟩
    · rintro ⟨c', hc', hlive⟩
      cases hc'
      exact ⟨{ c with wire }, rfl, hlive⟩
  have hsent : ∀ event, s.Sent event → (s.deliver c f wire).Sent event := by
    rintro event (hreceived | ⟨c', hc', f', hf', rfl⟩)
    · exact .inl (List.mem_append_left _ hreceived)
    · rw [hc] at hc'
      cases hc'
      rw [hwire] at hf'
      rcases List.mem_cons.mp hf' with rfl | hf'
      · exact .inl (List.mem_append_right _ List.mem_cons_self)
      · exact .inr ⟨{ c with wire }, rfl, f', hf', rfl⟩
  constructor
  · show f.id.or s.lastEventId = none
    rw [hids f (hwire ▸ List.mem_cons_self), h.noId]
    rfl
  · intro c' hc'
    cases hc'
    refine ⟨hcursor, fun f' hf' ↦ hids f' (hwire ▸ List.mem_cons_of_mem _ hf'), ?_⟩
    refine hphase.imp_left fun hrequested ↦ ?_
    rw [hrequested.2] at hwire
    cases hwire
  · exact h.bounds
  · exact fun row hrow ↦ (h.carried row hrow).imp_left (hsent _)
  · exact fun hs row hrow ↦ hsent _ (h.idle (fun hlive' ↦ hs (hlive.mpr hlive')) row hrow)
  · intro n k hn hk row hrow hdevice
    exact List.mem_append_left _ (h.complete n k hn hk row hrow hdevice)

/-- The connection ends when nothing is on its way. -/
theorem Sound.drop (h : s.Sound devices) (c : Connection)
    (hg : s.since.isSome → s.Published devices ∧
      ∀ c ∈ s.connection, ∀ f ∈ c.wire, f.event.isChunk = false) :
    (s.drop c).Sound devices := by
  have hreceived : ∀ row, s.Relevant devices row → row.event ∈ s.received := by
    intro row hrow
    obtain ⟨hdevice, n, hn, -⟩ := id hrow
    obtain ⟨⟨hwaiting, hinbox⟩, hwire⟩ := hg (Option.isSome_of_eq_some hn)
    rcases h.carried row hrow with hsent | hrow' | hrow'
    · refine hsent.received fun c' hc' f hf heq ↦ ?_
      have hchunk := hwire c' hc' f hf
      rw [heq] at hchunk
      cases hchunk
    · exact absurd hdevice (hwaiting row hrow')
    · exact (hinbox.not_mem hdevice hrow').elim
  constructor
  · exact h.noId
  · intro c' hc'
    cases hc'
  · exact h.bounds
  · exact fun row hrow ↦ .inl (.inl (hreceived row hrow))
  · exact fun _ row hrow ↦ .inl (hreceived row hrow)
  · exact h.complete

/-- The subscriber connects to Redis again when no output would be lost. -/
theorem Sound.ready (h : s.Sound devices)
    (hg : s.since.isSome → s.Handled devices) :
    Sound devices { s with bus := s.bus.ready } where
  noId := h.noId
  connection := h.connection
  bounds := h.bounds
  carried row hrow := by
    obtain ⟨hdevice, n, hn, -⟩ := id hrow
    rcases h.carried row hrow with hsent | hwaiting | hinbox
    · exact .inl hsent
    · exact .inr (.inl hwaiting)
    · exact ((hg (Option.isSome_of_eq_some hn)).not_mem hdevice hinbox).elim
  idle := h.idle
  complete := h.complete

/-- Every step that is not disturbed. -/
theorem Sound.step {e : SiteEvent} (h : s.Sound devices) (hg : s.Undisturbed devices e)
    (hs : s.step devices e = some t) : t.Sound devices := by
  have hnotReplaying : ∀ c missed pending, s.connection = some c →
      c.phase ≠ .replaying missed pending := by
    intro c missed pending hc hphase
    rcases (h.connection c hc).2.2 with ⟨h, -⟩ | h | h
    · exact nomatch hphase.symm.trans h
    · exact nomatch hphase.symm.trans h
    · exact nomatch hphase.symm.trans h
  cases e with
  | insert row =>
      rw [Site.step] at hs
      split at hs
      · cases hs
      · cases hs
        exact h.insert hg
  | publish row =>
      rw [Site.step] at hs
      split at hs
      · cases hs
        exact h.publish hg
      · cases hs
  | announce deviceId event =>
      rw [Site.step] at hs
      split at hs
      · cases hs
      · cases hs
        exact h.withBus fun _ hm ↦ Bus.mem_publish hm
  | execute =>
      obtain ⟨bus, hbus, rfl⟩ := Option.map_eq_some_iff.mp hs
      exact h.withBus fun _ hm ↦ (Bus.execute_inbox hbus).symm ▸ hm
  | arrive =>
      rw [Site.step] at hs
      split at hs
      · cases hs
      · rename_i m inbox hinbox
        cases hs
        exact h.arrive hinbox
  | ready =>
      cases hs
      exact h.ready hg
  | otherOpens channels =>
      cases hs
      exact h.withBus fun _ hm ↦ hm
  | otherCloses channels =>
      rw [Site.step] at hs
      split at hs
      · cases hs
        exact h.withBus fun _ hm ↦ hm
      · cases hs
  | connect owned =>
      rw [Site.step] at hs
      split at hs
      · rename_i hnone
        split at hs
        · cases hs
          exact h.connect hnone owned
        · cases hs
      · cases hs
  | start =>
      obtain ⟨c, hc, hs⟩ := Option.bind_eq_some_iff.mp hs
      split at hs
      · rename_i hphase
        cases hs
        exact h.start hc hphase
      · cases hs
  | query =>
      obtain ⟨c, hc, hs⟩ := Option.bind_eq_some_iff.mp hs
      split at hs
      · rename_i hphase _
        exact absurd hphase (hnotReplaying c _ _ hc)
      · cases hs
  | fail | finish =>
      obtain ⟨c, hc, hs⟩ := Option.bind_eq_some_iff.mp hs
      split at hs
      · rename_i hphase
        exact absurd hphase (hnotReplaying c _ _ hc)
      · cases hs
  | close =>
      obtain ⟨c, hc, hs⟩ := Option.bind_eq_some_iff.mp hs
      split at hs
      · cases hs
        exact h.close hc hg
      · cases hs
  | deliver =>
      obtain ⟨c, hc, hs⟩ := Option.bind_eq_some_iff.mp hs
      split at hs
      · cases hs
      · rename_i f wire hwire
        cases hs
        exact h.deliver hc hwire
  | drop =>
      obtain ⟨c, hc, rfl⟩ := Option.map_eq_some_iff.mp hs
      exact h.drop c hg
  | abort =>
      rw [Site.step] at hs
      split at hs
      · cases hs
      · cases hs
        exact h.withBus fun _ hm ↦ hm

end Site

/-- In every run that is not disturbed, the tab has at the end of each replay been given all rows
that it should have been given. -/
theorem chunks_complete (devices : List String) {s : Site}
    (h : Reach (Site.step devices) (Site.Undisturbed devices) {} s) : s.Complete devices :=
  (h.invariant Site.sound_start fun _ _ _ hs hg hstep ↦ hs.step hg hstep).complete

/-! ## A row between two connections -/

def exampleRow : OutputRow where
  id := 1
  commandId := "cmd"
  deviceId := "dev"
  seq := 0
  stream := .stdout
  chunk := "hello"

/-- The row comes over the first connection, which is lost afterwards. -/
theorem chunks_complete_received : ∃ s,
    Reach (Site.step ["dev"]) (Site.Undisturbed ["dev"]) {} s ∧
    (s.since = some 0 ∧ s.replayed = some 1 ∧ s.rows = [exampleRow]) ∧ s.Complete ["dev"] := by
  obtain ⟨s, hs, hrun⟩ : ∃ s, Reach (Site.step ["dev"]) (Site.Undisturbed ["dev"]) {} s ∧
      (s.since = some 0 ∧ s.replayed = some 1 ∧ s.rows = [exampleRow]) :=
    Reach.exists_of_exec [.connect [("dev", .online)], .start, .execute, .insert exampleRow,
      .publish exampleRow, .arrive, .deliver, .deliver, .drop, .connect [("dev", .online)],
      .start] (by decide)
  exact ⟨s, hs, hrun, chunks_complete ["dev"] hs⟩

/-- The row is inserted when the first connection is lost and the second is not there yet. -/
theorem chunk_missed : ∃ s, Reach (Site.step ["dev"]) (fun _ _ ↦ True) {} s ∧
    (s.since = some 0 ∧ s.replayed = some 1 ∧ s.rows = [exampleRow]) ∧ ¬ s.Complete ["dev"] := by
  refine Reach.exists_of_exec [.connect [("dev", .online)], .start, .execute, .deliver, .drop,
    .insert exampleRow, .publish exampleRow, .arrive, .connect [("dev", .online)], .start] ?_
  decide

end Zenstier
