import Zenstier.Agent.Emitter
import Zenstier.Concurrent.Pool

/-!
# Three goroutines and one stream

While a command runs, one goroutine copies its output into the emitter, a ticker flushes it, and
when the process has ended a third one stops the ticker and closes the emitter.  `Flush` takes
the batch under the lock and hands it to the sink after the lock is gone, and the sink gives out
the sequence numbers.  So a batch may be overtaken on the way, and may still be on the way when
`Run` returns.
-/

namespace Zenstier.Agent

open Concurrent

/-! ## The goroutines -/

inductive Goroutine
  /-- Copies the output of the process. -/
  | pipe
  | ticker
  /-- Waits for the process. -/
  | finisher
deriving DecidableEq, Repr

/-- Where the copying goroutine is. -/
inductive PipeState
  | copying
  /-- It has filled the buffer, and is about to flush it. -/
  | full
  /-- The stream has ended. -/
  | done
deriving DecidableEq, Repr

/-- Where `Run` is. -/
inductive RunState
  /-- In `proc.Wait`. -/
  | waiting
  /-- The ticker has been told to stop. -/
  | stopped
  /-- `Close` has looked at the buffer. -/
  | flushed
  /-- The emitter is closed. -/
  | closed
  | returned
deriving DecidableEq, Repr

/-- A stream of a command that is run. -/
structure Streaming where
  emitter : Emitter := {}
  pipe : PipeState := .copying
  /-- The ticker goroutine is there. -/
  ticking : Bool := true
  run : RunState := .waiting
  /-- What has been taken from the buffer but not handed to the sink, the oldest first. -/
  held : List (Goroutine × List UInt8) := []
  /-- The next sequence number. -/
  seq : Nat := 0
  /-- What the sink has been given. -/
  published : List (Nat × List UInt8) := []
  /-- What the process has written. -/
  written : List UInt8 := []
deriving DecidableEq, Repr

inductive StreamEvent
  /-- The locked section of `Write`. -/
  | write (p : List UInt8)
  /-- The locked section of `Flush`. -/
  | take (g : Goroutine)
  /-- The sink is called. -/
  | sink (g : Goroutine)
  /-- The sink is called for the other stream. -/
  | otherSink
  /-- The stream has ended. -/
  | eof
  /-- `close(stopFlush)`, once the process has ended. -/
  | stop
  /-- The ticker stops. -/
  | halt
  /-- The second locked section of `Close`. -/
  | close
  /-- `Run` returns. -/
  | ret
deriving DecidableEq, Repr

namespace Streaming

/-- The goroutine has taken a batch. -/
def Holds (s : Streaming) (g : Goroutine) : Prop := ∃ data, (g, data) ∈ s.held

instance (s : Streaming) (g : Goroutine) : Decidable (s.Holds g) :=
  decidable_of_iff (g ∈ s.held.map Prod.fst) (by simp [Holds])

/-- The goroutine is about to flush. -/
def Flushes (s : Streaming) : Goroutine → Prop
  | .pipe => s.pipe = .full
  | .ticker => s.ticking = true ∧ ¬ s.Holds .ticker
  | .finisher => s.run = .stopped

instance (s : Streaming) (g : Goroutine) : Decidable (s.Flushes g) := by
  cases g <;> unfold Flushes <;> infer_instance

/-- Takes a batch. -/
def take (s : Streaming) (g : Goroutine) : Streaming :=
  { s with
    emitter := s.emitter.take.2
    held := s.held ++ s.emitter.take.1.toList.map (g, ·)
    pipe := if g = .pipe then .copying else s.pipe
    run := if g = .finisher then .flushed else s.run }

/-- Hands over the batch of a goroutine. -/
def sink (s : Streaming) (g : Goroutine) : Option Streaming :=
  match s.held.find? fun h ↦ h.1 = g with
  | none => none
  | some h => some { s with
      held := s.held.erase h, seq := s.seq + 1, published := s.published ++ [(s.seq, h.2)] }

def step (max : Nat) (s : Streaming) : StreamEvent → Option Streaming
  | .write p =>
      if s.pipe = .copying ∧ ¬ s.Holds .pipe then
        let (full, emitter) := s.emitter.write max p
        some { s with
          emitter, pipe := if full then .full else .copying, written := s.written ++ p }
      else none
  | .take g => if s.Flushes g then some (s.take g) else none
  | .sink g => s.sink g
  | .otherSink => some { s with seq := s.seq + 1 }
  | .eof => if s.pipe = .copying ∧ ¬ s.Holds .pipe then some { s with pipe := .done } else none
  | .stop => if s.run = .waiting ∧ s.pipe = .done then some { s with run := .stopped } else none
  | .halt =>
      if s.ticking ∧ s.run ≠ .waiting ∧ ¬ s.Holds .ticker then some { s with ticking := false }
      else none
  | .close =>
      if s.run = .flushed ∧ ¬ s.Holds .finisher then
        some { s with emitter := { s.emitter with closed := true }, run := .closed }
      else none
  | .ret => if s.run = .closed then some { s with run := .returned } else none

/-- All that has been written has been published, in the order of the sequence numbers, and
nothing is on its way. -/
structure Complete (s : Streaming) : Prop where
  ordered : (s.published.map Prod.fst).Pairwise (· < ·)
  all : (s.published.map Prod.snd).flatten = s.written
  rest : s.held = [] ∧ s.emitter.buf = []

/-- No batch is overtaken: what is handed to the sink is the oldest that has been taken.  And
`Run` does not return while the ticker has a batch in its hands. -/
def InTurn (s : Streaming) : StreamEvent → Prop
  | .sink g => ∀ h ∈ s.held.head?, h.1 = g
  | .ret => ¬ s.Holds .ticker
  | _ => True

instance (s : Streaming) (e : StreamEvent) : Decidable (s.InTurn e) := by
  cases e <;> unfold InTurn <;> infer_instance

/-! ## What one step preserves -/

/-- Nothing has got lost, and everything is in its place. -/
structure Sound (s : Streaming) : Prop where
  data : s.written =
    (s.published.map Prod.snd).flatten ++ ((s.held.map Prod.snd).flatten ++ s.emitter.buf)
  ordered : (s.published.map Prod.fst).Pairwise (· < ·)
  fresh : ∀ n ∈ s.published.map Prod.fst, n < s.seq
  /-- The process is waited for until the stream has ended. -/
  ended : s.run ≠ .waiting → s.pipe = .done
  idle : s.pipe ≠ .copying → ¬ s.Holds .pipe
  closed : s.emitter.closed = true ↔ s.run = .closed ∨ s.run = .returned
  drained : s.run = .flushed ∨ s.run = .closed ∨ s.run = .returned → s.emitter.buf = []
  finishing : s.Holds .finisher → s.run = .flushed
  alone : s.run = .returned → ¬ s.Holds .ticker

theorem not_holds_nil {s : Streaming} (h : s.held = []) (g : Goroutine) : ¬ s.Holds g := by
  rintro ⟨data, hdata⟩
  rw [h] at hdata
  cases hdata

theorem Sound.start : Sound {} where
  data := rfl
  ordered := .nil
  fresh n hn := by cases hn
  ended h := absurd rfl h
  idle h := absurd rfl h
  closed := by decide
  drained _ := rfl
  finishing h := absurd h (not_holds_nil rfl _)
  alone _ := not_holds_nil rfl _

theorem holds_take {s : Streaming} {g g' : Goroutine} :
    (s.take g).Holds g' ↔ s.Holds g' ∨ g' = g ∧ s.emitter.take.1.isSome := by
  unfold Holds take
  cases s.emitter.take.1 with
  | none => simp
  | some batch => simp [exists_or]

theorem Sound.write {s : Streaming} (h : s.Sound) (max : Nat) (p : List UInt8)
    (hpipe : s.pipe = .copying) (hidle : ¬ s.Holds .pipe) :
    Sound { s with
      emitter := (s.emitter.write max p).2
      pipe := if (s.emitter.write max p).1 then .full else .copying
      written := s.written ++ p } := by
  have hwaiting : s.run = .waiting := by
    by_contra hrun
    rw [h.ended hrun] at hpipe
    cases hpipe
  refine ⟨?_, h.ordered, h.fresh, fun hrun ↦ absurd hwaiting hrun, fun _ ↦ hidle, h.closed,
    fun hrun ↦ ?_, h.finishing, h.alone⟩
  · show s.written ++ p = _ ++ (_ ++ (s.emitter.buf ++ p))
    rw [h.data]
    simp only [List.append_assoc]
  · rcases hrun with hrun | hrun | hrun <;> exact absurd (hrun.symm.trans hwaiting) (by decide)

/-- The state of `Run` after a flush. -/
theorem take_run {s : Streaming} {g : Goroutine} (hg : s.Flushes g) :
    (s.take g).run = s.run ∨ s.run = .stopped ∧ (s.take g).run = .flushed := by
  cases g with
  | finisher => exact .inr ⟨hg, rfl⟩
  | pipe | ticker => exact .inl rfl

theorem Sound.take {s : Streaming} (h : s.Sound) {g : Goroutine} (hg : s.Flushes g) :
    (s.take g).Sound := by
  have hrun := take_run hg
  constructor
  · show s.written = _ ++ ((List.map Prod.snd (s.held ++ _)).flatten ++ s.emitter.take.2.buf)
    have hbatch : ((s.emitter.take.1.toList.map (g, ·)).map Prod.snd).flatten =
        s.emitter.take.1.getD [] := by
      rw [List.map_map]
      exact (congrArg _ (List.map_id _)).trans (Emitter.flatten_toList _)
    rw [List.map_append, List.flatten_append, hbatch, List.append_assoc, Emitter.take_data]
    exact h.data
  · exact h.ordered
  · exact h.fresh
  · intro hne
    have hpipe : s.pipe = .done := by
      refine h.ended fun hwaiting ↦ ?_
      rcases hrun with hrun | ⟨hstopped, -⟩
      · exact hne (hrun.trans hwaiting)
      · exact absurd (hstopped.symm.trans hwaiting) (by decide)
    cases g with
    | pipe => exact absurd (hg.symm.trans hpipe) (by decide)
    | ticker | finisher => exact hpipe
  · intro hpipe hholds
    rcases holds_take.mp hholds with hbefore | ⟨rfl, -⟩
    · cases g with
      | pipe => exact hpipe rfl
      | ticker | finisher => exact h.idle hpipe hbefore
    · exact hpipe rfl
  · show s.emitter.take.2.closed = true ↔ _
    rw [Emitter.take_closed, h.closed]
    rcases hrun with hrun | ⟨hstopped, hflushed⟩
    · rw [hrun]
    · rw [hstopped, hflushed]
      decide
  · intro hafter
    show s.emitter.take.2.buf = []
    rcases hrun with hrun | ⟨hstopped, -⟩
    · exact Emitter.take_buf_of_nil (h.drained (hrun ▸ hafter))
    · have hopen : s.emitter.closed = false := by
        rw [← Bool.not_eq_true, h.closed, hstopped]
        decide
      exact (Emitter.take_of_open hopen).2
  · intro hholds
    rcases holds_take.mp hholds with hholds | ⟨rfl, -⟩
    · rcases hrun with hrun | ⟨-, hflushed⟩
      · exact hrun.trans (h.finishing hholds)
      · exact hflushed
    · rfl
  · intro hreturned hholds
    have hreturned' : s.run = .returned := by
      rcases hrun with hrun | ⟨-, hflushed⟩
      · exact hrun.symm.trans hreturned
      · exact absurd (hflushed.symm.trans hreturned) (by decide)
    rcases holds_take.mp hholds with hholds | ⟨-, hsome⟩
    · exact h.alone hreturned' hholds
    · -- A closed emitter gives nothing.
      rw [Emitter.take_of_closed (h.closed.mpr (.inr hreturned'))] at hsome
      cases hsome

/-- In turn, the oldest batch is handed over. -/
theorem sink_inTurn {s t : Streaming} {g : Goroutine} (hturn : s.InTurn (.sink g))
    (hs : s.sink g = some t) :
    ∃ data rest, s.held = (g, data) :: rest ∧ t = { s with
      held := rest, seq := s.seq + 1, published := s.published ++ [(s.seq, data)] } := by
  unfold sink at hs
  cases hheld : s.held with
  | nil =>
      rw [hheld] at hs
      cases hs
  | cons h rest =>
      obtain ⟨g', data⟩ := h
      obtain rfl : g' = g := hturn (g', data) (by rw [hheld]; rfl)
      rw [hheld, List.find?_cons_of_pos (by exact decide_eq_true rfl)] at hs
      refine ⟨data, rest, rfl, ?_⟩
      rw [← Option.some.inj hs, List.erase_cons_head]

theorem Sound.sink {s t : Streaming} (h : s.Sound) {g : Goroutine}
    (hturn : s.InTurn (.sink g)) (hs : s.sink g = some t) : t.Sound := by
  obtain ⟨data, rest, hheld, rfl⟩ := sink_inTurn hturn hs
  have hfewer : ∀ {g'}, (∃ data, (g', data) ∈ rest) → s.Holds g' := by
    rintro g' ⟨data', hmem⟩
    exact ⟨data', hheld ▸ List.mem_cons_of_mem _ hmem⟩
  constructor
  · show s.written = (List.map Prod.snd (s.published ++ [(s.seq, data)])).flatten ++ _
    rw [h.data, hheld, List.map_append, List.flatten_append]
    simp only [List.map_cons, List.map_nil, List.flatten_cons, List.flatten_nil, List.append_nil,
      List.append_assoc]
  · show (List.map Prod.fst (s.published ++ [(s.seq, data)])).Pairwise (· < ·)
    rw [List.map_append, List.pairwise_append]
    refine ⟨h.ordered, List.pairwise_singleton _ _, fun n hn m hm ↦ ?_⟩
    rw [List.mem_singleton.mp hm]
    exact h.fresh n hn
  · intro n hn
    show n < s.seq + 1
    rw [List.map_append, List.mem_append] at hn
    rcases hn with hn | hn
    · exact Nat.lt_succ_of_lt (h.fresh n hn)
    · rw [List.mem_singleton.mp hn]
      exact Nat.lt_succ_self _
  · exact h.ended
  · exact fun hpipe hholds ↦ h.idle hpipe (hfewer hholds)
  · exact h.closed
  · exact h.drained
  · exact fun hholds ↦ h.finishing (hfewer hholds)
  · exact fun hreturned hholds ↦ h.alone hreturned (hfewer hholds)

/-- Every step that is in turn keeps everything in its place. -/
theorem Sound.step {max : Nat} {s t : Streaming} (h : s.Sound) {e : StreamEvent}
    (hturn : s.InTurn e) (hs : s.step max e = some t) : t.Sound := by
  cases e with
  | write p =>
      obtain ⟨⟨hpipe, hidle⟩, ⟨⟩⟩ := Option.ite_none_right_eq_some.mp hs
      exact h.write max p hpipe hidle
  | take g =>
      obtain ⟨hg, ⟨⟩⟩ := Option.ite_none_right_eq_some.mp hs
      exact h.take hg
  | sink g => exact h.sink hturn hs
  | otherSink =>
      cases hs
      exact { h with fresh := fun n hn ↦ Nat.lt_succ_of_lt (h.fresh n hn) }
  | eof =>
      obtain ⟨⟨-, hidle⟩, ⟨⟩⟩ := Option.ite_none_right_eq_some.mp hs
      exact { h with ended := fun _ ↦ rfl, idle := fun _ ↦ hidle }
  | stop =>
      obtain ⟨⟨hwaiting, hdone⟩, ⟨⟩⟩ := Option.ite_none_right_eq_some.mp hs
      refine { h with
        ended := fun _ ↦ hdone, closed := ?_, drained := ?_, finishing := ?_, alone := ?_ }
      · show s.emitter.closed = true ↔ RunState.stopped = .closed ∨ RunState.stopped = .returned
        rw [h.closed, hwaiting]
        decide
      · intro hrun
        rcases hrun with hrun | hrun | hrun <;> cases hrun
      · intro hholds
        exact absurd (hwaiting.symm.trans (h.finishing hholds)) (by decide)
      · intro hrun
        cases hrun
  | halt =>
      obtain ⟨-, ⟨⟩⟩ := Option.ite_none_right_eq_some.mp hs
      exact { h with }
  | close =>
      obtain ⟨⟨hflushed, hgone⟩, ⟨⟩⟩ := Option.ite_none_right_eq_some.mp hs
      refine { h with ended := ?_, closed := ?_, drained := ?_, finishing := ?_, alone := ?_ }
      · exact fun _ ↦ h.ended (by rw [hflushed]; decide)
      · exact ⟨fun _ ↦ .inl rfl, fun _ ↦ rfl⟩
      · exact fun _ ↦ h.drained (.inl hflushed)
      · exact fun hholds ↦ absurd hholds hgone
      · intro hrun
        cases hrun
  | ret =>
      obtain ⟨hclosed, ⟨⟩⟩ := Option.ite_none_right_eq_some.mp hs
      refine { h with ended := ?_, closed := ?_, drained := ?_, finishing := ?_, alone := ?_ }
      · exact fun _ ↦ h.ended (by rw [hclosed]; decide)
      · exact ⟨fun _ ↦ .inr rfl, fun _ ↦ h.closed.mpr (.inl hclosed)⟩
      · exact fun _ ↦ h.drained (.inr (.inl hclosed))
      · intro hholds
        exact absurd (hclosed.symm.trans (h.finishing hholds)) (by decide)
      · exact fun _ ↦ hturn

/-- When `Run` returns, nobody has anything left. -/
theorem Sound.complete {s : Streaming} (h : s.Sound) (hreturned : s.run = .returned) :
    s.Complete := by
  have hheld : s.held = [] := by
    refine List.eq_nil_iff_forall_not_mem.mpr fun (g, data) hmem ↦ ?_
    have hholds : s.Holds g := ⟨data, hmem⟩
    cases g with
    | pipe =>
        refine h.idle ?_ hholds
        rw [h.ended (by rw [hreturned]; decide)]
        decide
    | ticker => exact h.alone hreturned hholds
    | finisher => exact absurd (hreturned.symm.trans (h.finishing hholds)) (by decide)
  have hbuf := h.drained (.inr (.inr hreturned))
  refine ⟨h.ordered, ?_, hheld, hbuf⟩
  rw [h.data, hheld, hbuf]
  exact (List.append_nil _).symm

/-! ## Whole runs -/

/-- As long as no batch is overtaken and none is left behind, the chunks are what has been
written. -/
theorem stream_complete (max : Nat) {s : Streaming} (h : Reach (step max) InTurn {} s)
    (hreturned : s.run = .returned) : s.Complete := by
  have hsound : s.Sound := by
    refine h.invariant Sound.start ?_
    intro s e t hs hturn hstep
    exact hs.step hturn hstep
  exact hsound.complete hreturned

/-- A flush by the ticker, one by the size of the buffer, and the rest at the end. -/
theorem stream_complete_run : ∃ s : Streaming, s.run = .returned ∧ s.Complete := by
  obtain ⟨s, hs, hrun⟩ := @Reach.exists_of_exec _ _ (step 3) InTurn {} _
    (fun s ↦ s.run = .returned) _
    [.write [1], .take .ticker, .sink .ticker, .write [2, 3, 4], .take .pipe, .otherSink,
      .sink .pipe, .write [5], .eof, .stop, .take .finisher, .sink .finisher, .halt, .close, .ret]
    (by decide)
  exact ⟨s, hrun, stream_complete 3 hs hrun⟩

/-- The process ends while the ticker has the last batch in its hands: `Close` finds an empty
buffer, and `Run` returns.  Or `Close` finds what has been written since, and overtakes it. -/
theorem stream_incomplete :
    (∃ s : Streaming, Reach (step streamChunkBytes) (fun _ _ ↦ True) {} s ∧
      s.run = .returned ∧ s.written = [104, 105] ∧ s.published = [] ∧ ¬ s.Complete) ∧
    ∃ s : Streaming, Reach (step streamChunkBytes) (fun _ _ ↦ True) {} s ∧
      s.run = .returned ∧ s.written = [104, 105] ∧ s.published = [(0, [105]), (1, [104])] ∧
      ¬ s.Complete := by
  have hincomplete {s : Streaming} {published} (hw : s.written = [104, 105])
      (hp : s.published = published) (hne : (published.map Prod.snd).flatten ≠ [104, 105]) :
      ¬ s.Complete := by
    intro h
    have hall := h.all
    rw [hp, hw] at hall
    exact hne hall
  constructor
  · obtain ⟨s, hs, hrun, hw, hp⟩ :=
      @Reach.exists_of_exec _ _ (step streamChunkBytes) (fun _ _ ↦ True) {} _
        (fun s ↦ s.run = .returned ∧ s.written = [104, 105] ∧ s.published = []) _
        [.write [104, 105], .take .ticker, .eof, .stop, .take .finisher, .close, .ret]
        (by decide)
    exact ⟨s, hs, hrun, hw, hp, hincomplete hw hp (by decide)⟩
  · obtain ⟨s, hs, hrun, hw, hp⟩ :=
      @Reach.exists_of_exec _ _ (step streamChunkBytes) (fun _ _ ↦ True) {} _
        (fun s ↦ s.run = .returned ∧ s.written = [104, 105] ∧
          s.published = [(0, [105]), (1, [104])]) _
        [.write [104], .take .ticker, .write [105], .eof, .stop, .take .finisher, .sink .finisher,
          .sink .ticker, .halt, .close, .ret]
        (by decide)
    exact ⟨s, hs, hrun, hw, hp, hincomplete hw hp (by decide)⟩

end Streaming

end Zenstier.Agent
