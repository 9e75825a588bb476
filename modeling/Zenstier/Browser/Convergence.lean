import Zenstier.Browser.Reducer

/-!
# Convergence of the event stream

What is known about one command reaches a browser as accepted events, chunks and one result, in
any order and with repetitions.  `Shows` says what the lines on the screen then are: those of a
base, which is empty or what the result fell back on, and the chunks that have come and whose
numbers the base does not take.  So the order does not matter exactly if there are no chunks, or
the result has nothing to fall back on that is not a chunk.
-/

namespace Zenstier.Browser

open Store

/-! ## What is reported about a command -/

/-- The events about one command: the chunks have numbers of their own. -/
structure Reports where
  commandId : String
  deviceId : String
  accepted : List Bool
  chunks : List Line
  distinct : (chunks.map (·.seq)).Nodup
  status : CommandStatus
  exitCode : Option Int
  stdout : String
  stderr : String
  truncated : Bool
  durationMs : Option Int
  error : Option String

namespace Reports

variable (r : Reports)

def accept (running : Bool) : SseEvent := .commandAccepted r.commandId r.deviceId running

def chunk (l : Line) : SseEvent := .commandChunk r.commandId r.deviceId l.stream l.seq l.data

def result : SseEvent :=
  .commandResult r.commandId r.deviceId r.status r.exitCode r.stdout r.stderr r.truncated
    r.durationMs r.error

def events : List SseEvent := r.accepted.map r.accept ++ r.chunks.map r.chunk ++ [r.result]

/-- Every event about the command is delivered, and no other; what else is delivered is about
other commands or devices. -/
def Delivered (events : List SseEvent) : Prop :=
  ∀ e, commandOf e = some r.commandId → (e ∈ events ↔ e ∈ r.events)

/-- The run once the result is known, with the lines it shows. -/
def outcome (lines : List Line) : CommandRun where
  commandId := r.commandId
  deviceId := r.deviceId
  status := spell r.status
  exitCode := r.exitCode
  lines
  durationMs := r.durationMs
  error := r.error
  finished := true

/-- What the result falls back on. -/
def buffered : List Line := fallback r.stdout r.stderr

theorem chunk_injective : Function.Injective r.chunk := by
  rintro ⟨seq, stream, data⟩ ⟨seq', stream', data'⟩ h
  cases h
  rfl

theorem eq_of_seq_eq {l l' : Line} (hl : l ∈ r.chunks) (hl' : l' ∈ r.chunks)
    (h : l.seq = l'.seq) : l = l' := List.inj_on_of_nodup_map r.distinct hl hl' h

end Reports

/-! ## Lines in order -/

/-- Lines in order, no two with the same number. -/
def Ordered (lines : List Line) : Prop := lines.Pairwise fun a b ↦ a.seq < b.seq

instance : IsTrans Line Line.le := ⟨fun _ _ _ h h' ↦ Nat.le_trans h h'⟩

instance : Std.Total Line.le := ⟨fun a b ↦ Nat.le_total a.seq b.seq⟩

/-- Lines in order are known from what they are. -/
theorem Ordered.ext {lines lines' : List Line} (h : Ordered lines) (h' : Ordered lines')
    (hmem : ∀ l, l ∈ lines ↔ l ∈ lines') : lines = lines' := by
  have : Std.Irrefl fun a b : Line ↦ a.seq < b.seq := ⟨fun a ↦ Nat.lt_irrefl a.seq⟩
  have : Std.Antisymm fun a b : Line ↦ a.seq < b.seq :=
    ⟨fun a b hab hba ↦ absurd hba (Nat.lt_asymm hab)⟩
  exact List.Pairwise.eq_of_mem_iff h h' hmem

theorem Ordered.insert {lines : List Line} (h : Ordered lines) {l : Line}
    (hl : ∀ l' ∈ lines, l'.seq ≠ l.seq) : Ordered ((lines ++ [l]).insertionSort Line.le) := by
  have hne : (lines ++ [l]).Pairwise fun a b ↦ a.seq ≠ b.seq := by
    refine List.pairwise_append.mpr
      ⟨h.imp fun hlt ↦ Nat.ne_of_lt hlt, List.pairwise_singleton _ _, ?_⟩
    intro a ha b hb
    obtain rfl := List.mem_singleton.mp hb
    exact hl a ha
  have hperm := List.perm_insertionSort Line.le (lines ++ [l])
  have hsorted := List.pairwise_insertionSort Line.le (lines ++ [l])
  have hne' := (hperm.pairwise_iff fun hab ↦ Ne.symm hab).mpr hne
  exact (hsorted.and hne').imp fun hab ↦ Nat.lt_of_le_of_ne hab.1 hab.2

theorem ordered_fallback (stdout stderr : String) : Ordered (fallback stdout stderr) := by
  unfold fallback Ordered
  split <;> split <;> simp

/-! ## What is shown -/

/-- What a run shows when some chunks have come, and perhaps the result: a base, and the chunks
that it leaves room for. -/
structure Shows (r : Reports) (base seen : List Line) (done : Bool) (run : CommandRun) :
    Prop where
  ordered : Ordered run.lines
  mem : ∀ l, l ∈ run.lines ↔ l ∈ base ∨ l ∈ seen ∧ ∀ b ∈ base, b.seq ≠ l.seq
  finished : run.finished = done
  outcome : done = true → run = r.outcome run.lines

/-- What is known of the command: the base of its run, once there is one. -/
structure Tracks (r : Reports) (seen : List Line) (done : Bool) (state : StreamState) : Prop where
  sound : ∀ l ∈ seen, l ∈ r.chunks
  start : state.runs.find? r.commandId = none → seen = [] ∧ done = false
  run : ∀ run, state.runs.find? r.commandId = some run → ∃ base,
    (base = [] ∨ done = true ∧ base = r.buffered) ∧
      (done = true → seen = [] → base = r.buffered) ∧ Shows r base seen done run

theorem Tracks.of_run {r : Reports} {seen : List Line} {done : Bool} {state : StreamState}
    {run : CommandRun} (hsound : ∀ l ∈ seen, l ∈ r.chunks)
    (hrun : state.runs.find? r.commandId = some run) {base : List Line}
    (hbase : base = [] ∨ done = true ∧ base = r.buffered)
    (hdone : done = true → seen = [] → base = r.buffered) (hshows : Shows r base seen done run) :
    Tracks r seen done state where
  sound := hsound
  start h := nomatch hrun.symm.trans h
  run run' h := by
    obtain rfl := Option.some.inj (hrun.symm.trans h)
    exact ⟨base, hbase, hdone, hshows⟩

section Steps

variable {r : Reports} {base seen : List Line} {done : Bool} {state : StreamState}

/-- An event about something else. -/
theorem Tracks.other (h : Tracks r seen done state) {e : SseEvent}
    (he : commandOf e ≠ some r.commandId) : Tracks r seen done (reducer state (.event e)) where
  sound := h.sound
  start := by
    rw [find?_reducer_of_ne he]
    exact h.start
  run := by
    rw [find?_reducer_of_ne he]
    exact h.run

/-- A run that is not finished, as far as its lines are concerned. -/
theorem Shows.of_lines {run run' : CommandRun} (h : Shows r base seen false run)
    (hlines : run'.lines = run.lines) (hfinished : run'.finished = false) :
    Shows r base seen false run' where
  ordered := hlines ▸ h.ordered
  mem := hlines ▸ h.mem
  finished := hfinished
  outcome hdone := nomatch hdone

/-- An accepted event changes no lines, and nothing of a run that has its result. -/
theorem Tracks.accept (h : Tracks r seen done state) (running : Bool) :
    Tracks r seen done (reducer state (.event (r.accept running))) := by
  cases hrun : state.runs.find? r.commandId with
  | none =>
      obtain ⟨rfl, rfl⟩ := h.start hrun
      obtain ⟨run, hnew, hlines, hfinished⟩ :=
        find?_accepted r.deviceId (by rw [hrun]; rfl) running
      rw [linesOf, hrun, Option.elim_none] at hlines
      refine .of_run h.sound hnew (.inl rfl) (fun h ↦ absurd h Bool.false_ne_true)
        ⟨?_, ?_, hfinished, fun h ↦ absurd h Bool.false_ne_true⟩
      · rw [hlines]
        exact List.Pairwise.nil
      · intro l
        rw [hlines]
        simp only [List.not_mem_nil, false_and, or_false]
  | some run =>
      obtain ⟨base, hbase, hdone, hshows⟩ := h.run run hrun
      cases done with
      | true =>
          have hnew := find?_accepted_of_finished r.deviceId hrun hshows.finished running
          exact .of_run h.sound hnew hbase hdone hshows
      | false =>
          have hopen : (state.runs.find? r.commandId).any (·.finished) = false := by
            rw [hrun]
            exact hshows.finished
          obtain ⟨run', hnew, hlines, hfinished⟩ := find?_accepted r.deviceId hopen running
          rw [linesOf_of_find? hrun] at hlines
          exact .of_run h.sound hnew hbase hdone (hshows.of_lines hlines hfinished)

/-- A chunk that has come before, or whose number the base takes. -/
theorem Shows.cons_of_mem {run : CommandRun} (h : Shows r base seen done run) {l : Line}
    (hl : l ∈ seen ∨ ∃ b ∈ base, b.seq = l.seq) : Shows r base (l :: seen) done run where
  ordered := h.ordered
  mem l' := by
    rw [h.mem, List.mem_cons]
    constructor
    · exact Or.imp id fun h ↦ ⟨.inr h.1, h.2⟩
    · rintro (hb | ⟨rfl | hseen, hroom⟩)
      · exact .inl hb
      · rcases hl with hseen | ⟨b, hb, hseq⟩
        · exact .inr ⟨hseen, hroom⟩
        · exact absurd hseq (hroom b hb)
      · exact .inr ⟨hseen, hroom⟩
  finished := h.finished
  outcome := h.outcome

/-- A chunk with a new number. -/
theorem Shows.cons {run : CommandRun} (h : Shows r base seen done run) {l : Line}
    (hl : ∀ l' ∈ run.lines, l'.seq ≠ l.seq) :
    Shows r base (l :: seen) done
      { run with lines := (run.lines ++ [l]).insertionSort Line.le } where
  ordered := h.ordered.insert hl
  mem l' := by
    have hroom : ∀ b ∈ base, b.seq ≠ l.seq := fun b hb ↦ hl b ((h.mem b).mpr (.inl hb))
    rw [List.mem_insertionSort, List.mem_append, List.mem_singleton, h.mem, List.mem_cons]
    constructor
    · rintro ((hb | ⟨hseen, hroom'⟩) | rfl)
      · exact .inl hb
      · exact .inr ⟨.inr hseen, hroom'⟩
      · exact .inr ⟨.inl rfl, hroom⟩
    · rintro (hb | ⟨rfl | hseen, hroom'⟩)
      · exact .inl (.inl hb)
      · exact .inr rfl
      · exact .inl (.inr ⟨hseen, hroom'⟩)
  finished := h.finished
  outcome hdone := by
    rw [h.outcome hdone]
    rfl

theorem Tracks.chunk (h : Tracks r seen done state) {l : Line} (hl : l ∈ r.chunks) :
    Tracks r (l :: seen) done (reducer state (.event (r.chunk l))) := by
  have hsound : ∀ l' ∈ l :: seen, l' ∈ r.chunks := List.forall_mem_cons.mpr ⟨hl, h.sound⟩
  cases hrun : state.runs.find? r.commandId with
  | none =>
      obtain ⟨rfl, rfl⟩ := h.start hrun
      obtain ⟨run, hnew, hlines, hfinished⟩ :=
        find?_chunk_of_none r.deviceId hrun l.stream l.seq l.data
      refine .of_run hsound hnew (.inl rfl) (fun h ↦ nomatch h)
        ⟨?_, ?_, hfinished, fun h ↦ nomatch h⟩
      · rw [hlines]
        exact List.pairwise_singleton _ _
      · intro l'
        rw [hlines]
        simp only [List.mem_singleton, List.not_mem_nil, false_or, IsEmpty.forall_iff,
          implies_true, and_true]
  | some run =>
      obtain ⟨base, hbase, hdone, hshows⟩ := h.run run hrun
      by_cases htaken : ∃ l' ∈ run.lines, l'.seq = l.seq
      · have hnew := find?_chunk_of_mem r.deviceId hrun htaken l.stream l.data
        refine .of_run hsound hnew hbase (fun _ h ↦ nomatch h) (hshows.cons_of_mem ?_)
        obtain ⟨l', hl', hseq⟩ := htaken
        rcases (hshows.mem l').mp hl' with hb | ⟨hseen, -⟩
        · exact .inr ⟨l', hb, hseq⟩
        · exact .inl (r.eq_of_seq_eq (h.sound l' hseen) hl hseq ▸ hseen)
      · have hfree : ∀ l' ∈ run.lines, l'.seq ≠ l.seq := fun l' hl' hseq ↦ htaken ⟨l', hl', hseq⟩
        have hnew := find?_chunk r.deviceId hrun hfree l.stream l.data
        exact .of_run hsound hnew hbase (fun _ h ↦ nomatch h) (hshows.cons hfree)

/-- The run that the result leaves. -/
theorem find?_reports_result {lines : List Line}
    (hlines : linesOf state r.commandId = lines) :
    (reducer state (.event r.result)).runs.find? r.commandId =
      some (r.outcome (if lines = [] then r.buffered else lines)) :=
  find?_result r.deviceId hlines r.status r.exitCode r.stdout r.stderr r.truncated r.durationMs
    r.error

/-- A result that finds nothing on the screen shows what was buffered. -/
theorem Tracks.result_of_nil (h : Tracks r [] done state)
    (hnil : linesOf state r.commandId = []) :
    Tracks r [] true (reducer state (.event r.result)) := by
  have hnew := find?_reports_result hnil
  rw [if_pos rfl] at hnew
  refine .of_run h.sound hnew (.inr ⟨rfl, rfl⟩) (fun _ _ ↦ rfl)
    ⟨ordered_fallback _ _, ?_, rfl, fun _ ↦ rfl⟩
  intro l
  simp only [List.not_mem_nil, false_and, or_false]
  rfl

/-- The lines on the screen are all there is to a base and the chunks that have come. -/
theorem Shows.eq_nil {run : CommandRun} (h : Shows r base seen done run) (hnil : run.lines = []) :
    base = [] ∧ seen = [] := by
  have hbase : base = [] := by
    refine List.eq_nil_iff_forall_not_mem.mpr fun l hl ↦ ?_
    have := (h.mem l).mpr (.inl hl)
    rw [hnil] at this
    cases this
  refine ⟨hbase, List.eq_nil_iff_forall_not_mem.mpr fun l hl ↦ ?_⟩
  have hroom : ∀ b ∈ base, b.seq ≠ l.seq := by
    rw [hbase]
    exact fun b hb ↦ nomatch hb
  have := (h.mem l).mpr (.inr ⟨hl, hroom⟩)
  rw [hnil] at this
  cases this

theorem Tracks.result (h : Tracks r seen done state) :
    Tracks r seen true (reducer state (.event r.result)) := by
  cases hrun : state.runs.find? r.commandId with
  | none =>
      obtain ⟨rfl, -⟩ := h.start hrun
      exact h.result_of_nil (by rw [linesOf, hrun]; rfl)
  | some run =>
      obtain ⟨base, hbase, hdone, hshows⟩ := h.run run hrun
      have hlines := linesOf_of_find? hrun
      by_cases hnil : run.lines = []
      · obtain ⟨-, rfl⟩ := hshows.eq_nil hnil
        exact h.result_of_nil (hlines.trans hnil)
      · have hnew := find?_reports_result hlines
        rw [if_neg hnil] at hnew
        refine .of_run h.sound hnew (hbase.imp id fun h ↦ ⟨rfl, h.2⟩) (fun _ hseen ↦ ?_)
          ⟨hshows.ordered, hshows.mem, rfl, fun _ ↦ rfl⟩
        -- no chunk has come, but there are lines: they are what was buffered
        refine (hbase.resolve_left fun hbase ↦ hnil ?_).2
        refine List.eq_nil_iff_forall_not_mem.mpr fun l hl ↦ ?_
        subst hbase hseen
        rcases (hshows.mem l).mp hl with h | ⟨h, -⟩ <;> cases h

end Steps

/-! ## Runs -/

theorem view_cons (state : StreamState) (e : SseEvent) (events : List SseEvent) :
    view state (e :: events) = view (reducer state (.event e)) events := rfl

theorem view_append (state : StreamState) (events events' : List SseEvent) :
    view state (events ++ events') = view (view state events) events' := by
  rw [view, List.map_append, List.foldl_append]
  rfl

theorem mem_linesOf_view {id : String} {l : Line} (events : List SseEvent) {state : StreamState}
    (h : l ∈ linesOf state id) : l ∈ linesOf (view state events) id := by
  induction events generalizing state with
  | nil => exact h
  | cons e events ih => exact ih (mem_linesOf_reducer h e)

namespace Reports

variable {r : Reports} {e : SseEvent} {state : StreamState} {events : List SseEvent}

theorem mem_events : e ∈ r.events ↔
    (∃ running ∈ r.accepted, r.accept running = e) ∨ (∃ l ∈ r.chunks, r.chunk l = e) ∨
      e = r.result := by
  simp only [events, List.mem_append, List.mem_map, List.mem_singleton, or_assoc]

theorem chunk_ne_accept (l : Line) (running : Bool) : r.chunk l ≠ r.accept running :=
  fun h ↦ nomatch (h : SseEvent.commandChunk .. = SseEvent.commandAccepted ..)

theorem chunk_ne_result (l : Line) : r.chunk l ≠ r.result :=
  fun h ↦ nomatch (h : SseEvent.commandChunk .. = SseEvent.commandResult ..)

theorem result_ne_accept (running : Bool) : r.result ≠ r.accept running :=
  fun h ↦ nomatch (h : SseEvent.commandResult .. = SseEvent.commandAccepted ..)

/-- The events in some other order are delivered. -/
theorem delivered_of_perm (h : events.Perm r.events) : r.Delivered events := fun _ _ ↦ h.mem_iff

/-- After some of the events: the chunks that have come, and whether the result has. -/
theorem tracks_view {seen : List Line} {done : Bool} (h : Tracks r seen done state)
    (hevents : ∀ e ∈ events, commandOf e = some r.commandId → e ∈ r.events) :
    ∃ seen' done', Tracks r seen' done' (view state events) ∧
      (∀ l, l ∈ seen' ↔ l ∈ seen ∨ r.chunk l ∈ events) ∧
      (done' = true ↔ done = true ∨ r.result ∈ events) := by
  induction events generalizing state seen done with
  | nil => exact ⟨seen, done, h, by simp, by simp⟩
  | cons e events ih =>
      obtain ⟨he, htail⟩ := List.forall_mem_cons.mp hevents
      rw [view_cons]
      by_cases hid : commandOf e = some r.commandId
      · rcases mem_events.mp (he hid) with ⟨running, -, rfl⟩ | ⟨c, hc, rfl⟩ | rfl
        · obtain ⟨seen', done', ht, hseen, hdone⟩ := ih (h.accept running) htail
          refine ⟨seen', done', ht, fun l ↦ ?_, ?_⟩
          · simp only [hseen, List.mem_cons, chunk_ne_accept, false_or]
          · simp only [hdone, List.mem_cons, result_ne_accept, false_or]
        · obtain ⟨seen', done', ht, hseen, hdone⟩ := ih (h.chunk hc) htail
          refine ⟨seen', done', ht, fun l ↦ ?_, ?_⟩
          · rw [hseen, List.mem_cons, List.mem_cons, r.chunk_injective.eq_iff]
            exact or_assoc.trans or_left_comm
          · simp only [hdone, List.mem_cons, (chunk_ne_result c).symm, false_or]
        · obtain ⟨seen', done', ht, hseen, hdone⟩ := ih h.result htail
          refine ⟨seen', done', ht, fun l ↦ ?_, ?_⟩
          · simp only [hseen, List.mem_cons, chunk_ne_result, false_or]
          · simp only [hdone, List.mem_cons, true_or, or_true]
      · obtain ⟨seen', done', ht, hseen, hdone⟩ := ih (h.other hid) htail
        refine ⟨seen', done', ht, fun l ↦ ?_, ?_⟩
        · have hne : r.chunk l ≠ e := by
            rintro rfl
            exact hid rfl
          simp only [hseen, List.mem_cons, hne, false_or]
        · have hne : r.result ≠ e := by
            rintro rfl
            exact hid rfl
          simp only [hdone, List.mem_cons, hne, false_or]

/-- Nothing is known of the command. -/
theorem tracks_start (h : state.runs.find? r.commandId = none) : Tracks r [] false state where
  sound _ h := nomatch h
  start _ := ⟨rfl, rfl⟩
  run _ hrun := nomatch h.symm.trans hrun

/-- What is shown once everything has been delivered. -/
theorem shows_of_delivered (h : state.runs.find? r.commandId = none) (hd : r.Delivered events) :
    ∃ base lines, (view state events).runs.find? r.commandId = some (r.outcome lines) ∧
      (base = [] ∨ base = r.buffered) ∧ (r.chunks = [] → base = r.buffered) ∧ Ordered lines ∧
      ∀ l, l ∈ lines ↔ l ∈ base ∨ l ∈ r.chunks ∧ ∀ b ∈ base, b.seq ≠ l.seq := by
  obtain ⟨seen, done, ht, hseen, hdone⟩ :=
    tracks_view (tracks_start h) fun e he hid ↦ (hd e hid).mp he
  have hresult : r.result ∈ events := (hd _ rfl).mpr (mem_events.mpr (.inr (.inr rfl)))
  obtain rfl : done = true := hdone.mpr (.inr hresult)
  have hchunks : ∀ l, l ∈ seen ↔ l ∈ r.chunks := by
    intro l
    refine ⟨ht.sound l, fun hl ↦ (hseen l).mpr (.inr ?_)⟩
    exact (hd _ rfl).mpr (mem_events.mpr (.inr (.inl ⟨l, hl, rfl⟩)))
  cases hrun : (view state events).runs.find? r.commandId with
  | none => cases (ht.start hrun).2
  | some run =>
      obtain ⟨base, hbase, hnil, hshows⟩ := ht.run run hrun
      refine ⟨base, run.lines, congrArg some (hshows.outcome rfl), hbase.imp id And.right, ?_,
        hshows.ordered, fun l ↦ by rw [hshows.mem, hchunks]⟩
      intro hempty
      refine hnil rfl (List.eq_nil_iff_forall_not_mem.mpr fun l hl ↦ ?_)
      have := (hchunks l).mp hl
      rw [hempty] at this
      cases this

/-- The chunks take the place of what was buffered, if that is among them. -/
theorem mem_of_buffered {base lines : List Line} (hbase : base = [] ∨ base = r.buffered)
    (hmem : ∀ l, l ∈ lines ↔ l ∈ base ∨ l ∈ r.chunks ∧ ∀ b ∈ base, b.seq ≠ l.seq)
    (h : ∀ l ∈ r.buffered, l ∈ r.chunks) (l : Line) : l ∈ lines ↔ l ∈ r.chunks := by
  rw [hmem]
  have hsub : ∀ b ∈ base, b ∈ r.chunks := by
    rcases hbase with rfl | rfl
    · exact fun b hb ↦ nomatch hb
    · exact h
  constructor
  · rintro (hb | ⟨hl, -⟩)
    · exact hsub l hb
    · exact hl
  · intro hl
    by_cases hroom : ∀ b ∈ base, b.seq ≠ l.seq
    · exact .inr ⟨hl, hroom⟩
    · obtain ⟨b, hb, hseq⟩ : ∃ b ∈ base, b.seq = l.seq := by
        by_contra hnone
        exact hroom fun b hb hseq ↦ hnone ⟨b, hb, hseq⟩
      exact .inl (r.eq_of_seq_eq (hsub b hb) hl hseq ▸ hb)

end Reports

/-- The run of a command does not depend on the order in which its events come, nor on how
often each does. -/
def Converges (r : Reports) : Prop :=
  ∀ (state : StreamState) (events events' : List SseEvent),
    state.runs.find? r.commandId = none → r.Delivered events → r.Delivered events' →
    (view state events).runs.find? r.commandId = (view state events').runs.find? r.commandId

namespace Reports

variable {r : Reports}

/-- The order in which the agent reports: the chunks alone are shown, if there are any. -/
theorem linesOf_in_order (hne : r.chunks ≠ []) {l : Line}
    (hl : l ∈ linesOf (view {} r.events) r.commandId) : l ∈ r.chunks := by
  let before := r.accepted.map r.accept ++ r.chunks.map r.chunk
  have hbefore : ∀ e ∈ before, commandOf e = some r.commandId → e ∈ r.events :=
    fun e he _ ↦ List.mem_append_left _ he
  obtain ⟨seen, done, ht, hseen, hdone⟩ :=
    tracks_view (tracks_start (rfl : ({} : StreamState).runs.find? r.commandId = none)) hbefore
  have hopen : done = false := by
    refine Bool.eq_false_iff.mpr fun h ↦ ?_
    rcases hdone.mp h with h | h
    · cases h
    · rcases List.mem_append.mp h with h | h
      · obtain ⟨running, -, h⟩ := List.mem_map.mp h
        exact result_ne_accept running h.symm
      · obtain ⟨l, -, h⟩ := List.mem_map.mp h
        exact chunk_ne_result l h
  subst hopen
  obtain ⟨c, hc⟩ := List.exists_mem_of_ne_nil _ hne
  have hcseen : c ∈ seen :=
    (hseen c).mpr (.inr (List.mem_append_right _ (List.mem_map_of_mem hc)))
  cases hrun : (view {} before).runs.find? r.commandId with
  | none =>
      rw [(ht.start hrun).1] at hcseen
      cases hcseen
  | some run =>
      obtain ⟨base, hbase, -, hshows⟩ := ht.run run hrun
      obtain rfl : base = [] := hbase.resolve_right fun h ↦ nomatch h.1
      have hmem : ∀ l, l ∈ run.lines ↔ l ∈ seen := by
        intro l
        rw [hshows.mem]
        simp only [List.not_mem_nil, false_or, IsEmpty.forall_iff, implies_true, and_true]
      have hlines : run.lines ≠ [] := List.ne_nil_of_mem ((hmem c).mpr hcseen)
      have hfinal := find?_reports_result (linesOf_of_find? hrun)
      rw [if_neg hlines] at hfinal
      have hview : view {} r.events = reducer (view {} before) (.event r.result) :=
        view_append {} before [r.result]
      rw [hview, linesOf_of_find? hfinal] at hl
      exact ht.sound l ((hmem l).mp hl)

/-- If the result comes first, what it falls back on is shown, and stays. -/
theorem linesOf_result_first (events : List SseEvent) {l : Line} (hl : l ∈ r.buffered) :
    l ∈ linesOf (view {} (r.result :: events)) r.commandId := by
  rw [view_cons]
  refine mem_linesOf_view events ?_
  have hempty : linesOf {} r.commandId = [] := rfl
  rw [linesOf_of_find? (find?_reports_result hempty), if_pos rfl]
  exact hl

end Reports

/-- The run of a command converges exactly if no chunks were streamed, or whatever the result
falls back on is itself one of the chunks. -/
theorem reports_converge (r : Reports) :
    Converges r ↔ r.chunks = [] ∨ ∀ l ∈ r.buffered, l ∈ r.chunks := by
  constructor
  · intro h
    by_contra hcond
    rw [not_or] at hcond
    obtain ⟨hchunks, hbuffered⟩ := hcond
    refine hbuffered fun l hl ↦ Reports.linesOf_in_order hchunks ?_
    have hperm : (r.result :: (r.accepted.map r.accept ++ r.chunks.map r.chunk)).Perm r.events :=
      (List.perm_append_singleton _ _).symm
    have heq := h {} _ _ rfl (Reports.delivered_of_perm (List.Perm.refl r.events))
      (Reports.delivered_of_perm hperm)
    rw [linesOf, heq]
    exact Reports.linesOf_result_first _ hl
  · intro h state events events' hstate hd hd'
    obtain ⟨base, lines, hrun, hbase, hnil, hordered, hmem⟩ := Reports.shows_of_delivered hstate hd
    obtain ⟨base', lines', hrun', hbase', hnil', hordered', hmem'⟩ :=
      Reports.shows_of_delivered hstate hd'
    have hlines : lines = lines' := by
      refine hordered.ext hordered' fun l ↦ ?_
      rcases h with h | h
      · rw [hmem, hmem', hnil h, hnil' h]
      · rw [Reports.mem_of_buffered hbase hmem h, Reports.mem_of_buffered hbase' hmem' h]
    rw [hrun, hrun', hlines]

/-- A command that printed two lines, one chunk each. -/
def twoChunks : Reports where
  commandId := "cmd"
  deviceId := "dev"
  accepted := [true]
  chunks := [⟨0, .stdout, "a"⟩, ⟨1, .stdout, "b"⟩]
  distinct := by decide
  status := .succeeded
  exitCode := some 0
  stdout := "ab"
  stderr := ""
  truncated := false
  durationMs := some 5
  error := none

/-- If the result overtakes the chunks, its text takes the place of the first. -/
theorem reports_diverge :
    (∃ events events', twoChunks.Delivered events ∧ twoChunks.Delivered events' ∧
      (linesOf (view {} events) "cmd").map (·.data) = ["a", "b"] ∧
      (linesOf (view {} events') "cmd").map (·.data) = ["ab", "b"]) ∧ ¬ Converges twoChunks := by
  have hexec : (linesOf (view {} twoChunks.events) "cmd").map (·.data) = ["a", "b"] := by decide
  have hexec' : (linesOf (view {} twoChunks.events.reverse) "cmd").map (·.data) = ["ab", "b"] := by
    decide
  have hd := Reports.delivered_of_perm (List.Perm.refl twoChunks.events)
  have hd' := Reports.delivered_of_perm (List.reverse_perm twoChunks.events)
  refine ⟨⟨_, _, hd, hd', hexec, hexec'⟩, fun h ↦ ?_⟩
  have heq := h {} _ _ rfl hd hd'
  have hlines : linesOf (view {} twoChunks.events) twoChunks.commandId =
      linesOf (view {} twoChunks.events.reverse) twoChunks.commandId := by
    rw [linesOf, heq]
    rfl
  have hsame := hexec.symm.trans ((congrArg (List.map (·.data)) hlines).trans hexec')
  exact absurd hsame (by decide)

end Zenstier.Browser
