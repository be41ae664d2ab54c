import LineShell.Program.Capture
import LineShell.Text.Utf8
import Mathlib.Order.Monotone.Basic

/-! A program whose output is captured, with all that goes on beside the watcher. In whatever order
the program ends, its streams are closed, the readers send their texts and the time runs out, what
comes out is whole, or the run has taken too long. That it comes out at all rests on the system: a
program that is killed has to end. -/

namespace LineShell.Program

/-- One of the streams that a program writes to, and its reader. -/
structure Pipe where
  written : Text.Bytes := []
  /-- Whether nobody holds the stream open any more. The program's end alone does not close it. -/
  closed : Bool := false
  /-- What the reader has read so far. -/
  taken : Text.Bytes := []
  /-- Whether the reader has sent its text. -/
  done : Bool := false

/-- All that was written to the stream. -/
def Pipe.text (p : Pipe) : Text :=
  Text.lossy p.written

/-- The watcher of a program, and the program's streams. -/
structure Scene where
  watch : Watch := {}
  pipe : Stream → Pipe := fun _ => {}

/-- The scene with another state of one stream. -/
def Scene.setPipe (s : Scene) (stream : Stream) (p : Pipe) : Scene :=
  { s with pipe := Function.update s.pipe stream p }

/-- What happens beside the watcher: the program ends, it or whoever else holds a stream writes to
it, the last of them closes it, its reader reads on, the reader has read all and sends it, the time
runs out, and the system fails to tell the program's end. -/
inductive Happens (s : Scene) : Scene → Prop
  | exits (status : Status) (h : s.watch.status = none) :
    Happens s { s with watch := s.watch.note (.exits status) }
  | writes (stream : Stream) (bytes : Text.Bytes) (h : (s.pipe stream).closed = false) :
    Happens s (s.setPipe stream
      { s.pipe stream with written := (s.pipe stream).written ++ bytes })
  | closes (stream : Stream) : Happens s (s.setPipe stream { s.pipe stream with closed := true })
  | reads (stream : Stream) (bytes : Text.Bytes)
    (h : (s.pipe stream).taken ++ bytes <+: (s.pipe stream).written) :
    Happens s (s.setPipe stream { s.pipe stream with taken := (s.pipe stream).taken ++ bytes })
  | sends (stream : Stream) (hclosed : (s.pipe stream).closed = true)
    (hall : (s.pipe stream).taken = (s.pipe stream).written)
    (hdone : (s.pipe stream).done = false) :
    Happens s { s.setPipe stream { s.pipe stream with done := true } with
      watch := s.watch.note (.delivers stream (Text.lossy (s.pipe stream).taken)) }
  | expires : Happens s { s with watch := s.watch.note .expires }
  | fails (cause : IoError) (h : s.watch.failure = none) :
    Happens s { s with watch := s.watch.note (.fails cause) }

/-- Whether a watcher waits in this phase, and may be told that the time is over. -/
def Phase.waits : Phase → Bool
  | .waiting => true
  | .receiving _ pending _ _ => pending ≠ 0
  | .ending | .settled _ => false

/-- The watcher takes a turn. Where it waits and the time is over it may also be told so, though
something else was there to be seen at the last moment. -/
inductive Turns (s : Scene) : Scene → Prop
  | turn {w : Watch} (h : s.watch.turn? = some w) : Turns s { s with watch := w }
  | late (hexpired : s.watch.expired = true) (hwaits : s.watch.phase.waits = true) :
    Turns s { s with watch := s.watch.giveUp }

/-- A run from its start on, in any order. A watcher that can take a turn takes one some time. -/
structure Behaviour (scene : Nat → Scene) : Prop where
  start : scene 0 = {}
  next : ∀ n, scene (n + 1) = scene n ∨ Happens (scene n) (scene (n + 1)) ∨
    Turns (scene n) (scene (n + 1))
  fair : ∀ n, (∀ m, n ≤ m → (scene m).watch.turn?.isSome) →
    ∃ m, n ≤ m ∧ Turns (scene m) (scene (m + 1))

namespace Watch

/-- All that a turn can be: the program's end cannot be told, or it has ended; the time is over, and
the program is killed or its streams are left alone; a text is taken in, or none is to come; a
program that was killed is gone. -/
inductive Takes (w : Watch) : Watch → Prop
  | fails {cause : IoError} (hphase : w.phase = .waiting) (h : w.failure = some cause) :
    Takes w { w with phase := .settled (.error cause) }
  | ends {status : Status} (hphase : w.phase = .waiting) (h : w.status = some status) :
    Takes w { w with phase := .receiving status readerCount [] [] }
  | kills (hphase : w.phase = .waiting) (h : w.expired = true) :
    Takes w { w with phase := .ending, killed := true }
  | leaves {status : Status} {pending : Nat} {out err : Text}
    (hphase : w.phase = .receiving status (pending + 1) out err) (h : w.expired = true) :
    Takes w { w with phase := .settled (.ok .timedOut) }
  | receives {status : Status} {pending : Nat} {out err : Text} {stream : Stream} {text : Text}
    {sent : List (Stream × Text)} (hphase : w.phase = .receiving status (pending + 1) out err)
    (h : w.sent = (stream, text) :: sent) :
    Takes w { w with
      phase := .receiving status pending (if stream = .out then text else out)
        (if stream = .err then text else err)
      sent }
  | tells {status : Status} {pending : Nat} {out err : Text}
    (hphase : w.phase = .receiving status pending out err)
    (h : pending = 0 ∨ w.readers = 0 ∧ w.sent = []) :
    Takes w { w with phase := .settled (.ok (.exited status (out ++ err))) }
  | buries (hphase : w.phase = .ending) (h : w.status.isSome ∨ w.failure.isSome) :
    Takes w { w with phase := .settled (.ok .timedOut) }

variable {w w' : Watch}

theorem takes_giveUp (hexpired : w.expired = true) (hwaits : w.phase.waits = true) :
    w.Takes w.giveUp := by
  rw [giveUp]
  cases hphase : w.phase with
  | waiting => exact .kills hphase hexpired
  | ending | settled run =>
    rw [hphase] at hwaits
    cases hwaits
  | receiving status pending out err =>
    cases pending with
    | zero =>
      rw [hphase] at hwaits
      cases hwaits
    | succ pending => exact .leaves hphase hexpired

theorem takes_of_turn? (h : w.turn? = some w') : w.Takes w' := by
  unfold turn? at h
  split at h
  case h_1 hphase =>
    split at h
    case h_1 cause hfailure => exact Option.some.inj h ▸ .fails hphase hfailure
    case h_2 status _ hstatus => exact Option.some.inj h ▸ .ends hphase hstatus
    case h_3 =>
      split at h
      case isTrue hexpired =>
        exact Option.some.inj h ▸ takes_giveUp hexpired (by rw [hphase]; rfl)
      case isFalse => cases h
  case h_2 hphase =>
    split at h
    case isTrue hgone =>
      exact Option.some.inj h ▸ .buries hphase (Bool.or_eq_true_iff.mp hgone)
    case isFalse => cases h
  case h_3 status out err hphase => exact Option.some.inj h ▸ .tells hphase (.inl rfl)
  case h_4 status pending out err hphase =>
    split at h
    case h_1 text sent hsent => exact Option.some.inj h ▸ .receives hphase hsent
    case h_2 text sent hsent => exact Option.some.inj h ▸ .receives hphase hsent
    case h_3 hsent =>
      split at h
      case isTrue hreaders => exact Option.some.inj h ▸ .tells hphase (.inr ⟨hreaders, hsent⟩)
      case isFalse =>
        split at h
        case isTrue hexpired =>
          exact Option.some.inj h ▸ takes_giveUp hexpired (by rw [hphase]; rfl)
        case isFalse => cases h
  case h_5 => cases h

/-- A turn brings the end nearer. -/
theorem Takes.turns_lt (h : w.Takes w') : w'.phase.turns < w.phase.turns := by
  cases h with
  | fails hphase | ends hphase | kills hphase | leaves hphase | receives hphase | tells hphase
  | buries hphase =>
    rw [hphase]
    simp [Phase.turns, readerCount]

/-- A turn changes nothing of what it is about. -/
theorem Takes.same (h : w.Takes w') : w'.expired = w.expired ∧ w'.status = w.status ∧
    w'.failure = w.failure ∧ w'.readers = w.readers := by
  cases h <;> exact ⟨rfl, rfl, rfl, rfl⟩

/-- A watcher takes turns until the run is settled, once the time is over or all is there to be
seen, and a program that it has killed is gone. -/
theorem isSome_turn? (hphase : ∀ run, w.phase ≠ .settled run)
    (h : w.expired = true ∨ w.status.isSome ∧ w.readers = 0)
    (hgone : w.phase = .ending → w.status.isSome) : w.turn?.isSome := by
  unfold turn?
  split
  case h_1 =>
    split
    case h_1 | h_2 => rfl
    case h_3 hstatus =>
      have hexpired : w.expired = true := h.resolve_right fun ⟨hsome, _⟩ => by
        rw [hstatus] at hsome
        cases hsome
      rw [if_pos hexpired]
      rfl
  case h_2 hending =>
    rw [if_pos (by rw [hgone hending]; rfl)]
    rfl
  case h_3 => rfl
  case h_4 =>
    split
    case h_1 | h_2 => rfl
    case h_3 =>
      split
      case isTrue => rfl
      case isFalse hreaders =>
        rw [if_pos (h.resolve_right fun ⟨_, hzero⟩ => hreaders hzero)]
        rfl
  case h_5 run hsettled => exact absurd hsettled (hphase run)

/-- A watcher goes on, with nothing sent to it. It is in the same phase, and forgets nothing. -/
structure Keeps (w w' : Watch) : Prop where
  phase : w'.phase = w.phase
  readers : w'.readers = w.readers
  sent : w'.sent = w.sent
  killed : w'.killed = w.killed
  status : ∀ status, w.status = some status → w'.status = some status
  failure : ∀ cause, w.failure = some cause → w'.failure = some cause
  expired : w.expired = true → w'.expired = true

theorem Keeps.refl (w : Watch) : w.Keeps w :=
  ⟨rfl, rfl, rfl, rfl, fun _ => id, fun _ => id, id⟩

theorem keeps_exits (h : w.status = none) (status : Status) : w.Keeps (w.note (.exits status)) :=
  { Keeps.refl w with status := fun _ hs => nomatch h.symm.trans hs }

theorem keeps_fails (h : w.failure = none) (cause : IoError) : w.Keeps (w.note (.fails cause)) :=
  { Keeps.refl w with failure := fun _ hs => nomatch h.symm.trans hs }

theorem keeps_expires (w : Watch) : w.Keeps (w.note .expires) :=
  { Keeps.refl w with expired := fun _ => rfl }

end Watch

/-- What a run may be told as by what has happened: it has taken too long, or its end could not be
told, or it is whole, with all of the program's output followed by all of its errors. -/
inductive Scene.Whole (s : Scene) : Except IoError Captured → Prop
  | timedOut (h : s.watch.expired = true) : Whole s (.ok .timedOut)
  | failed {cause : IoError} (h : s.watch.failure = some cause) : Whole s (.error cause)
  | exited {status : Status} (h : s.watch.status = some status) (hkilled : s.watch.killed = false)
    (hclosed : ∀ stream, (s.pipe stream).closed = true) :
    Whole s (.ok (.exited status ((s.pipe .out).text ++ (s.pipe .err).text)))

/-- What is true of the phase that a watcher is in, by what has happened. -/
def Phase.Holds (s : Scene) : Phase → Prop
  | .waiting =>
    s.watch.killed = false ∧ s.watch.readers + s.watch.sent.length = readerCount ∧
      ∀ stream, (s.pipe stream).done = true → (stream, (s.pipe stream).text) ∈ s.watch.sent
  | .ending => s.watch.killed = true ∧ s.watch.expired = true
  | .receiving status pending out err =>
    s.watch.killed = false ∧ s.watch.status = some status ∧
      pending = s.watch.readers + s.watch.sent.length ∧
      ∀ stream, (s.pipe stream).done = true →
        (stream, (s.pipe stream).text) ∈ s.watch.sent ∨
          (match stream with | .out => out | .err => err) = (s.pipe stream).text
  | .settled run => s.Whole run

/-- What is true of a scene at any time: the readers that have not sent their text are counted,
those that have sent it have read all of a stream that is closed, and what they sent is what the
watcher goes by. -/
structure Scene.Sound (s : Scene) : Prop where
  readers : s.watch.readers = [Stream.out, .err].countP fun stream => !(s.pipe stream).done
  closed : ∀ stream, (s.pipe stream).done = true → (s.pipe stream).closed = true
  sent : ∀ stream text, (stream, text) ∈ s.watch.sent →
    (s.pipe stream).done = true ∧ text = (s.pipe stream).text
  phase : s.watch.phase.Holds s

/-- A stream goes on, with nothing sent by its reader. What was closed stays as it is. -/
structure Pipe.Flows (p p' : Pipe) : Prop where
  done : p'.done = p.done
  closed : p.closed = true → p'.closed = true
  text : p.closed = true → p'.text = p.text

namespace Scene

theorem sound_start : Sound {} :=
  ⟨rfl, nofun, nofun, rfl, rfl, nofun⟩

variable {s s' : Scene}

theorem pipe_setPipe (stream stream' : Stream) (p : Pipe) :
    (s.setPipe stream p).pipe stream' = if stream' = stream then p else s.pipe stream' := by
  simp only [setPipe, Function.update_apply]

theorem flows_setPipe {stream : Stream} {p : Pipe} (h : (s.pipe stream).Flows p)
    (stream' : Stream) : (s.pipe stream').Flows ((s.setPipe stream p).pipe stream') := by
  rw [pipe_setPipe]
  split
  case isTrue heq => exact heq ▸ h
  case isFalse => exact ⟨rfl, id, fun _ => rfl⟩

/-- What is told of a run stays true. -/
theorem Whole.flows {run : Except IoError Captured} (h : s.Whole run)
    (hpipe : ∀ stream, (s.pipe stream).Flows (s'.pipe stream))
    (hkilled : s'.watch.killed = s.watch.killed)
    (hstatus : ∀ status, s.watch.status = some status → s'.watch.status = some status)
    (hfailure : ∀ cause, s.watch.failure = some cause → s'.watch.failure = some cause)
    (hexpired : s.watch.expired = true → s'.watch.expired = true) : s'.Whole run := by
  cases h with
  | timedOut h => exact .timedOut (hexpired h)
  | failed h => exact .failed (hfailure _ h)
  | exited h hlives hclosed =>
    rw [← (hpipe .out).text (hclosed .out), ← (hpipe .err).text (hclosed .err)]
    exact .exited (hstatus _ h) (hkilled.trans hlives) fun stream =>
      (hpipe stream).closed (hclosed stream)

/-- What is true stays true while no reader sends anything. -/
theorem Sound.flows (h : s.Sound) (hpipe : ∀ stream, (s.pipe stream).Flows (s'.pipe stream))
    (hwatch : s.watch.Keeps s'.watch) : s'.Sound := by
  have hdone (stream : Stream) : (s'.pipe stream).done = (s.pipe stream).done :=
    (hpipe stream).done
  have htext (stream : Stream) (hs : (s.pipe stream).done = true) :
      (s'.pipe stream).text = (s.pipe stream).text :=
    (hpipe stream).text (h.closed stream hs)
  have hholds := h.phase
  refine ⟨?_, fun stream hs => ?_, fun stream text hmem => ?_, ?_⟩
  · simpa only [hwatch.readers, hdone] using h.readers
  · exact (hpipe stream).closed (h.closed stream (hdone stream ▸ hs))
  · obtain ⟨hs, ht⟩ := h.sent stream text (hwatch.sent ▸ hmem)
    exact ⟨(hdone stream).trans hs, ht.trans (htext stream hs).symm⟩
  · rw [hwatch.phase]
    cases hcase : s.watch.phase with
    | waiting =>
      rw [hcase] at hholds
      obtain ⟨hlives, hcount, htold⟩ := hholds
      refine ⟨hwatch.killed.trans hlives, ?_, fun stream hs => ?_⟩
      · rw [hwatch.readers, hwatch.sent]
        exact hcount
      · have hs := (hdone stream).symm.trans hs
        rw [htext stream hs, hwatch.sent]
        exact htold stream hs
    | ending =>
      rw [hcase] at hholds
      exact ⟨hwatch.killed.trans hholds.1, hwatch.expired hholds.2⟩
    | receiving status pending out err =>
      rw [hcase] at hholds
      obtain ⟨hlives, hstatus, hpending, htold⟩ := hholds
      refine ⟨hwatch.killed.trans hlives, hwatch.status status hstatus, ?_, fun stream hs => ?_⟩
      · rw [hwatch.readers, hwatch.sent]
        exact hpending
      · have hs := (hdone stream).symm.trans hs
        rw [htext stream hs, hwatch.sent]
        exact htold stream hs
    | settled run =>
      rw [hcase] at hholds
      exact Whole.flows hholds hpipe hwatch.killed hwatch.status hwatch.failure hwatch.expired

theorem pipe_sends (s : Scene) (stream stream' : Stream) :
    (s.setPipe stream { s.pipe stream with done := true }).pipe stream' =
      { s.pipe stream' with done := (s.pipe stream').done || stream' = stream } := by
  rw [pipe_setPipe]
  split
  case isTrue heq => simp [heq]
  case isFalse hne => simp [hne]

/-- Once a reader has sent its text, one reader less is left. -/
theorem countP_sends (done : Stream → Bool) {stream : Stream} (h : done stream = false) :
    ([Stream.out, .err].countP fun stream' => !(done stream' || stream' = stream)) + 1 =
      [Stream.out, .err].countP fun stream' => !done stream' := by
  cases stream with
  | out => simp [List.countP_cons, h]
  | err => simp [List.countP_cons, h, Nat.add_comm]

section Sends

variable {stream : Stream} (h : s.Sound) (hall : (s.pipe stream).taken = (s.pipe stream).written)
  (hdone : (s.pipe stream).done = false)

include hall in
/-- What a reader has sent was sent before, or is what is sent now. -/
theorem mem_sends {p : Prop} (stream' : Stream)
    (hbefore : (s.pipe stream').done = true → (stream', (s.pipe stream').text) ∈ s.watch.sent ∨ p)
    (hs : ((s.pipe stream').done || stream' = stream) = true) :
    (stream', (s.pipe stream').text) ∈
      s.watch.sent ++ [(stream, Text.lossy (s.pipe stream).taken)] ∨ p := by
  rcases Bool.or_eq_true_iff.mp hs with hs | heq
  · exact (hbefore hs).imp_left (List.mem_append_left _)
  · obtain rfl := of_decide_eq_true heq
    rw [hall]
    exact .inl (List.mem_append_right _ (List.mem_singleton_self _))

include h hall hdone in
/-- The watcher's phase is right about what is sent to it, and not taken in yet. -/
theorem Sound.holds_sends : s.watch.phase.Holds
    { s.setPipe stream { s.pipe stream with done := true } with
      watch := s.watch.note (.delivers stream (Text.lossy (s.pipe stream).taken)) } := by
  have hphase := h.phase
  have hleft : s.watch.readers ≠ 0 := by
    have hcount := countP_sends (fun stream' => (s.pipe stream').done) hdone
    have hreaders := h.readers
    omega
  cases hcase : s.watch.phase with
  | waiting =>
    rw [hcase] at hphase
    obtain ⟨hlives, hcount, htold⟩ := hphase
    refine ⟨hlives, ?_, fun stream' hs => ?_⟩
    · simp only [Watch.note, List.length_append, List.length_singleton]
      omega
    · simp only [pipe_sends] at hs ⊢
      exact (mem_sends hall stream' (fun hs => .inl (htold stream' hs)) hs).resolve_right id
  | ending =>
    rw [hcase] at hphase
    exact hphase
  | receiving status pending out err =>
    rw [hcase] at hphase
    obtain ⟨hlives, hstatus, hpending, htold⟩ := hphase
    refine ⟨hlives, hstatus, ?_, fun stream' hs => ?_⟩
    · simp only [Watch.note, List.length_append, List.length_singleton]
      omega
    · simp only [pipe_sends] at hs ⊢
      exact mem_sends hall stream' (htold stream') hs
  | settled run =>
    rw [hcase] at hphase
    have hsame (stream' : Stream) : (s.pipe stream').text =
        ((s.setPipe stream { s.pipe stream with done := true }).pipe stream').text := by
      rw [pipe_sends]
      rfl
    cases hphase with
    | timedOut h => exact .timedOut h
    | failed h => exact .failed h
    | exited h hlives hclosed =>
      rw [hsame .out, hsame .err]
      refine .exited h hlives fun stream' => ?_
      rw [pipe_sends]
      exact hclosed stream'

include h hall hdone in
/-- A reader sends all of its stream, which is closed. -/
theorem Sound.sends (hclosed : (s.pipe stream).closed = true) :
    Sound { s.setPipe stream { s.pipe stream with done := true } with
      watch := s.watch.note (.delivers stream (Text.lossy (s.pipe stream).taken)) } := by
  refine ⟨?_, fun stream' hs => ?_, fun stream' text hmem => ?_, h.holds_sends hall hdone⟩
  · have hcount := countP_sends (fun stream' => (s.pipe stream').done) hdone
    simp only [Watch.note, pipe_sends, h.readers, ← hcount, Nat.add_sub_cancel]
  · simp only [pipe_sends, Bool.or_eq_true, decide_eq_true_eq] at hs ⊢
    exact hs.elim (h.closed stream') fun heq => heq ▸ hclosed
  · rw [pipe_sends]
    rcases List.mem_append.mp hmem with hmem | hmem
    · obtain ⟨hs, ht⟩ := h.sent stream' text hmem
      exact ⟨by rw [hs]; rfl, ht⟩
    · obtain ⟨rfl, rfl⟩ := Prod.mk.inj (List.mem_singleton.mp hmem)
      rw [hall]
      exact ⟨by simp, rfl⟩

end Sends

theorem Sound.happens (h : s.Sound) (hs : Happens s s') : s'.Sound := by
  have hstays (stream : Stream) : (s.pipe stream).Flows (s.pipe stream) :=
    ⟨rfl, id, fun _ => rfl⟩
  cases hs with
  | exits status hnone => exact h.flows hstays (Watch.keeps_exits hnone status)
  | writes stream bytes hopen =>
    refine h.flows (flows_setPipe ⟨rfl, id, fun hclosed => ?_⟩) (.refl _)
    rw [hopen] at hclosed
    cases hclosed
  | closes stream => exact h.flows (flows_setPipe ⟨rfl, fun _ => rfl, fun _ => rfl⟩) (.refl _)
  | reads stream bytes hprefix => exact h.flows (flows_setPipe ⟨rfl, id, fun _ => rfl⟩) (.refl _)
  | sends stream hclosed hall hdone => exact h.sends hall hdone hclosed
  | expires => exact h.flows hstays (Watch.keeps_expires _)
  | fails cause hnone => exact h.flows hstays (Watch.keeps_fails hnone cause)

/-- Once every reader has sent its text and none is left to be taken in, the watcher has both. -/
theorem Sound.whole (h : s.Sound) {status : Status} {pending : Nat} {out err : Text}
    (hphase : s.watch.phase = .receiving status pending out err)
    (hnone : pending = 0 ∨ s.watch.readers = 0 ∧ s.watch.sent = []) :
    (∀ stream, (s.pipe stream).closed = true) ∧ out = (s.pipe .out).text ∧
      err = (s.pipe .err).text := by
  obtain ⟨hreaders, hclosed, hsent, hholds⟩ := h
  rw [hphase] at hholds
  obtain ⟨-, -, hpending, htold⟩ := hholds
  have hzero : s.watch.readers = 0 ∧ s.watch.sent = [] := by
    refine hnone.elim (fun hzero => ?_) id
    have hlength : s.watch.sent.length = 0 := by omega
    exact ⟨by omega, List.length_eq_zero_iff.mp hlength⟩
  have hdone (stream : Stream) : (s.pipe stream).done = true := by
    have hcount := List.countP_eq_zero.mp (hreaders.symm.trans hzero.1) stream
      (by cases stream <;> simp)
    simpa using hcount
  have hheld (stream : Stream) :
      (match stream with | .out => out | .err => err) = (s.pipe stream).text :=
    (htold stream (hdone stream)).resolve_left (by rw [hzero.2]; exact List.not_mem_nil)
  exact ⟨fun stream => hclosed stream (hdone stream), hheld .out, hheld .err⟩

/-- The watcher's turn leaves the streams alone. -/
theorem exists_takes_of_turns (hs : Turns s s') :
    ∃ w, s.watch.Takes w ∧ s' = { s with watch := w } := by
  cases hs with
  | turn hturn => exact ⟨_, Watch.takes_of_turn? hturn, rfl⟩
  | late hexpired hwaits => exact ⟨_, Watch.takes_giveUp hexpired hwaits, rfl⟩

theorem Sound.takes (h : s.Sound) {w : Watch} (hw : s.watch.Takes w) :
    Sound { s with watch := w } := by
  have hholds := h.phase
  cases hw with
  | fails hphase hfailure => exact ⟨h.readers, h.closed, h.sent, .failed hfailure⟩
  | ends hphase hstatus =>
    rw [hphase] at hholds
    obtain ⟨hlives, hcount, htold⟩ := hholds
    exact ⟨h.readers, h.closed, h.sent, hlives, hstatus, hcount.symm,
      fun stream hs => .inl (htold stream hs)⟩
  | kills hphase hexpired => exact ⟨h.readers, h.closed, h.sent, rfl, hexpired⟩
  | leaves hphase hexpired => exact ⟨h.readers, h.closed, h.sent, .timedOut hexpired⟩
  | @receives status pending out err stream text sent hphase hsent =>
    rw [hphase] at hholds
    obtain ⟨hlives, hstatus, hpending, htold⟩ := hholds
    rw [hsent] at hpending htold
    have htext : text = (s.pipe stream).text :=
      (h.sent stream text (by rw [hsent]; exact List.mem_cons_self)).2
    refine ⟨h.readers, h.closed, fun stream' text' hmem => ?_, hlives, hstatus, ?_,
      fun stream' hs => ?_⟩
    · exact h.sent stream' text' (by rw [hsent]; exact List.mem_cons_of_mem _ hmem)
    · rw [List.length_cons] at hpending
      exact Nat.succ.inj hpending
    · by_cases heq : stream' = stream
      · subst heq
        cases stream' with
        | out => exact .inr htext
        | err => exact .inr htext
      · refine (htold stream' hs).imp (fun hmem => ?_) fun hheld => ?_
        · exact (List.mem_cons.mp hmem).resolve_left fun h => heq (Prod.mk.inj h).1
        · cases stream' with
          | out => exact (if_neg (Ne.symm heq)).trans hheld
          | err => exact (if_neg (Ne.symm heq)).trans hheld
  | tells hphase hnone =>
    obtain ⟨hclosed, hout, herr⟩ := h.whole hphase hnone
    rw [hphase] at hholds
    obtain ⟨hlives, hstatus, -⟩ := hholds
    refine ⟨h.readers, h.closed, h.sent, ?_⟩
    rw [hout, herr]
    exact .exited hstatus hlives hclosed
  | buries hphase =>
    rw [hphase] at hholds
    exact ⟨h.readers, h.closed, h.sent, .timedOut hholds.2⟩

theorem Sound.turns (h : s.Sound) (hs : Turns s s') : s'.Sound := by
  obtain ⟨w, hw, rfl⟩ := exists_takes_of_turns hs
  exact h.takes hw

/-- What happens beside the watcher leaves it in its phase, and takes back nothing. -/
theorem happens_watch (hs : Happens s s') :
    s'.watch.phase = s.watch.phase ∧ (s.watch.expired = true → s'.watch.expired = true) ∧
      (s.watch.status.isSome → s'.watch.status.isSome) ∧ s'.watch.readers ≤ s.watch.readers := by
  cases hs with
  | exits status hnone => exact ⟨rfl, id, fun _ => by simp [Watch.note, hnone], le_rfl⟩
  | writes | closes | reads | fails => exact ⟨rfl, id, id, le_rfl⟩
  | sends => exact ⟨rfl, id, id, Nat.sub_le _ _⟩
  | expires => exact ⟨rfl, fun _ => rfl, id, le_rfl⟩

end Scene

/-- What is relied on of the system, so that a run comes to be told: a program that is killed ends
some time, and the end of a program can be waited for. -/
structure Reliable (scene : Nat → Scene) : Prop where
  ends : ∀ n, (scene n).watch.killed = true → ∃ m, n ≤ m ∧ (scene m).watch.status.isSome
  tells : ∀ n, (scene n).watch.failure = none

namespace Behaviour

variable {scene : Nat → Scene}

/-- What no step takes back stays true. -/
theorem stays (b : Behaviour scene) {P : Scene → Prop}
    (hhappens : ∀ s s', Happens s s' → P s → P s')
    (htakes : ∀ (s : Scene) w, s.watch.Takes w → P s → P { s with watch := w }) {n m : Nat}
    (hnm : n ≤ m) (h : P (scene n)) : P (scene m) := by
  induction m, hnm using Nat.le_induction with
  | base => exact h
  | succ m _ ih =>
    rcases b.next m with hsame | hs | hs
    · exact hsame ▸ ih
    · exact hhappens _ _ hs ih
    · obtain ⟨w, hw, hnext⟩ := Scene.exists_takes_of_turns hs
      exact hnext ▸ htakes _ w hw ih

theorem sound (b : Behaviour scene) (n : Nat) : (scene n).Sound :=
  b.stays (fun _ _ hs h => h.happens hs) (fun _ _ hw h => h.takes hw) (Nat.zero_le n)
    (b.start ▸ Scene.sound_start)

theorem turns_anti (b : Behaviour scene) {n m : Nat} (hnm : n ≤ m) :
    (scene m).watch.phase.turns ≤ (scene n).watch.phase.turns := by
  refine b.stays (P := fun s => s.watch.phase.turns ≤ (scene n).watch.phase.turns)
    (fun s s' hs h => ?_) (fun s w hw h => hw.turns_lt.le.trans h) hnm le_rfl
  rwa [(Scene.happens_watch hs).1]

/-- Once a run is settled, it stays so. -/
theorem settled_mono (b : Behaviour scene) {n m : Nat} (hnm : n ≤ m)
    {run : Except IoError Captured} (h : (scene n).watch.phase = .settled run) :
    (scene m).watch.phase = .settled run := by
  refine b.stays (P := fun s => s.watch.phase = .settled run) (fun s s' hs h => ?_)
    (fun s w hw h => ?_) hnm h
  · rw [(Scene.happens_watch hs).1, h]
  · have hlt := hw.turns_lt
    rw [h] at hlt
    exact absurd hlt (Nat.not_lt_zero _)

theorem status_mono (b : Behaviour scene) {n m : Nat} (hnm : n ≤ m)
    (h : (scene n).watch.status.isSome) : (scene m).watch.status.isSome := by
  refine b.stays (P := fun s => s.watch.status.isSome) (fun s s' hs => ?_)
    (fun s w hw h => ?_) hnm h
  · exact (Scene.happens_watch hs).2.2.1
  · rwa [hw.same.2.1]

/-- All is there for the watcher to come to an end: the time is over, or the program has ended and
both texts are sent. -/
def Ready (s : Scene) : Prop :=
  s.watch.expired = true ∨ s.watch.status.isSome ∧ s.watch.readers = 0

theorem ready_mono (b : Behaviour scene) {n m : Nat} (hnm : n ≤ m) (h : Ready (scene n)) :
    Ready (scene m) := by
  refine b.stays (fun s s' hs h => ?_) (fun s w hw h => ?_) hnm h
  · obtain ⟨-, hexpired, hstatus, hreaders⟩ := Scene.happens_watch hs
    exact h.imp hexpired fun ⟨hsome, hzero⟩ =>
      ⟨hstatus hsome, Nat.le_zero.mp (hzero ▸ hreaders)⟩
  · obtain ⟨hexpired, hstatus, -, hreaders⟩ := hw.same
    rwa [Ready, hexpired, hstatus, hreaders]

/-- A watcher that has what it needs settles the run some time, if it does not wait for a program
that does not end. Each turn is one less to take. -/
theorem settles (b : Behaviour scene) {n : Nat} (h : Ready (scene n))
    (hgone : ∀ m, n ≤ m → (scene m).watch.phase = .ending → (scene m).watch.status.isSome) :
    ∃ m, n ≤ m ∧ ∃ run, (scene m).watch.phase = .settled run := by
  induction hturns : (scene n).watch.phase.turns using Nat.strong_induction_on generalizing n with
  | _ k ih =>
    by_contra hnever
    have hunsettled (m : Nat) (hm : n ≤ m) (run : Except IoError Captured) :
        (scene m).watch.phase ≠ .settled run := fun hrun => hnever ⟨m, hm, run, hrun⟩
    obtain ⟨m, hm, hturn⟩ := b.fair n fun m hm =>
      Watch.isSome_turn? (hunsettled m hm) (b.ready_mono hm h) (hgone m hm)
    obtain ⟨w, hw, hnext⟩ := Scene.exists_takes_of_turns hturn
    have hless : (scene (m + 1)).watch.phase.turns < k := by
      rw [hnext, ← hturns]
      exact hw.turns_lt.trans_le (b.turns_anti hm)
    obtain ⟨m', hm', run, hrun⟩ := ih _ hless (b.ready_mono (hm.trans (Nat.le_succ m)) h)
      (fun j hj => hgone j (by omega)) rfl
    exact hnever ⟨m', by omega, run, hrun⟩

/-- From some time on no program that was killed is left to be waited for. -/
theorem exists_gone (b : Behaviour scene) (r : Reliable scene) (n : Nat) :
    ∃ m, n ≤ m ∧ ∀ k, m ≤ k → (scene k).watch.phase = .ending →
      (scene k).watch.status.isSome := by
  by_cases hkills : ∃ k, n ≤ k ∧ (scene k).watch.killed = true
  · obtain ⟨k, hk, hkilled⟩ := hkills
    obtain ⟨m, hm, hended⟩ := r.ends k hkilled
    exact ⟨m, hk.trans hm, fun j hj _ => b.status_mono hj hended⟩
  · refine ⟨n, le_rfl, fun k hk hphase => ?_⟩
    have hholds := (b.sound k).phase
    rw [hphase] at hholds
    exact absurd ⟨k, hk, hholds.1⟩ hkills

/-- Where the system is reliable, a run is told some time. -/
theorem exists_told (b : Behaviour scene) (r : Reliable scene) {n : Nat} (h : Ready (scene n)) :
    ∃ m, n ≤ m ∧ ∃ run, (scene m).watch.phase = .settled (.ok run) := by
  obtain ⟨m, hm, hgone⟩ := b.exists_gone r n
  obtain ⟨k, hk, run, hrun⟩ := b.settles (b.ready_mono hm h) hgone
  have hwhole := (b.sound k).phase
  rw [hrun] at hwhole
  cases hwhole with
  | timedOut => exact ⟨k, hm.trans hk, .timedOut, hrun⟩
  | failed hfails => exact nomatch (r.tells k).symm.trans hfails
  | exited => exact ⟨k, hm.trans hk, _, hrun⟩

/-- A program that was killed and does not end is waited for without end. -/
theorem ending_of_stays (b : Behaviour scene) {n : Nat} (h : (scene n).watch.phase = .ending)
    (hstays : ∀ m, n ≤ m → (scene m).watch.status = none ∧ (scene m).watch.failure = none)
    {m : Nat} (hnm : n ≤ m) : (scene m).watch.phase = .ending := by
  induction m, hnm using Nat.le_induction with
  | base => exact h
  | succ m hm ih =>
    rcases b.next m with hsame | hs | hs
    · rw [hsame, ih]
    · rw [(Scene.happens_watch hs).1, ih]
    · obtain ⟨w, hw, -⟩ := Scene.exists_takes_of_turns hs
      obtain ⟨hstatus, hfailure⟩ := hstays m hm
      cases hw with
      | buries _ hgone => simp [hstatus, hfailure] at hgone
      | fails hphase | ends hphase | kills hphase | leaves hphase | receives hphase
      | tells hphase =>
        rw [ih] at hphase
        cases hphase

end Behaviour

namespace Watch

/-- Scenes in which the watcher looks whenever it is told of something. -/
inductive Seen : List Event → Scene → Prop
  | start : Seen [] {}
  | quiet {events : List Event} {s s' : Scene} (h : Seen events s) (hs : Happens s s')
    (hwatch : s'.watch = s.watch) : Seen events s'
  | event {events : List Event} {s s' : Scene} (h : Seen events s) {e : Event}
    (hs : Happens s s') (hwatch : s'.watch = s.watch.note e) :
    Seen (events ++ [e]) { s' with watch := s.watch.see e }

theorem sound_act (n : Nat) {s : Scene} (h : s.Sound) :
    Scene.Sound { s with watch := s.watch.act n } := by
  induction n generalizing s with
  | zero => exact h
  | succ n ih =>
    rw [act]
    cases hturn : s.watch.turn? with
    | none => exact h
    | some w => exact ih (h.takes (takes_of_turn? hturn))

theorem Seen.sound {events : List Event} {s : Scene} (h : Seen events s) : s.Sound := by
  induction h with
  | start => exact Scene.sound_start
  | quiet _ hs _ ih => exact ih.happens hs
  | event _ hs hwatch ih =>
    rw [see, ← hwatch]
    exact sound_act _ (ih.happens hs)

theorem Seen.watch_eq {events : List Event} {s : Scene} (h : Seen events s) :
    s.watch = events.foldl see {} := by
  induction h with
  | start => rfl
  | quiet _ _ hwatch ih => exact hwatch.trans ih
  | event _ _ _ ih =>
    rw [List.foldl_append, ← ih]
    rfl

end Watch

/-- What a run comes to by what was seen of it is whole. -/
theorem Watched.whole {w : Watched} {s : Scene} (h : Watch.Seen w.events s) : s.Whole w.run := by
  have hrun : captured? w.events = some w.run := (Option.some_get w.settles).symm
  rw [captured?, ← h.watch_eq, Watch.verdict?] at hrun
  have hphase := h.sound.phase
  split at hrun
  case h_1 run hsettled =>
    rw [hsettled, Option.some.inj hrun] at hphase
    exact hphase
  case h_2 => cases hrun

namespace Behaviour

/-- In whatever order the program ends, its streams are written to and closed, the readers send
their texts and the time runs out: a run that is settled stays so, and it has either taken too
long, or its end could not be told, or it is told with the program's status and with all of its
output followed by all of its errors; it is not told so if the program has not ended or one of its
streams is still open, whatever came by the other. Where programs that are killed end and can be
waited for, the run is settled once the time is over or all is there, and then it has taken too long
if the program only ends when it is killed, or one of its streams is never closed. A program that
does not even end then is waited for without end. What a session goes by is such a run. -/
theorem captured_whole :
    (∀ scene, Behaviour scene →
      (∀ n run, (scene n).watch.phase = .settled run →
        (∀ m, n ≤ m → (scene m).watch.phase = .settled run ∧ (scene m).Whole run) ∧
        ((scene n).watch.status = none ∨ (∃ stream, ((scene n).pipe stream).closed = false) →
          ∀ status output, run ≠ .ok (.exited status output))) ∧
      (Reliable scene → ∀ n, (scene n).watch.expired = true ∨
          (scene n).watch.status.isSome ∧ (∀ stream, ((scene n).pipe stream).done = true) →
        ∃ m, n ≤ m ∧ ∃ run, (scene m).watch.phase = .settled (.ok run)) ∧
      (Reliable scene → ∀ n, (scene n).watch.expired = true →
        (∀ m, (scene m).watch.status.isSome → (scene m).watch.killed = true) ∨
          (∃ stream, ∀ m, ((scene m).pipe stream).closed = false) →
        ∃ m, n ≤ m ∧ (scene m).watch.phase = .settled (.ok .timedOut)) ∧
      ∀ n, (scene n).watch.phase = .ending →
        (∀ m, n ≤ m → (scene m).watch.status = none ∧ (scene m).watch.failure = none) →
        ∀ m, n ≤ m → (scene m).watch.phase = .ending) ∧
    ∀ (w : Watched) (s : Scene), Watch.Seen w.events s → s.Whole w.run := by
  refine ⟨fun scene b => ⟨fun n run hrun => ⟨fun m hm => ?_, ?_⟩, fun r n h => ?_,
    fun r n hexpired hnever => ?_, fun n h hstays m hm => b.ending_of_stays h hstays hm⟩,
    fun w s h => w.whole h⟩
  · have hsettled := b.settled_mono hm hrun
    have hwhole := (b.sound m).phase
    rw [hsettled] at hwhole
    exact ⟨hsettled, hwhole⟩
  · rintro hopen status output rfl
    have hwhole := (b.sound n).phase
    rw [hrun] at hwhole
    cases hwhole with
    | exited hstatus _ hclosed =>
      rcases hopen with hnone | ⟨stream, hopen⟩
      · exact nomatch hnone.symm.trans hstatus
      · exact nomatch hopen.symm.trans (hclosed stream)
  · refine b.exists_told r (h.imp_right fun ⟨hstatus, hdone⟩ => ⟨hstatus, ?_⟩)
    rw [(b.sound n).readers]
    exact List.countP_eq_zero.mpr fun stream _ => by simp [hdone stream]
  · obtain ⟨m, hm, run, hrun⟩ := b.exists_told r (.inl hexpired)
    have hwhole := (b.sound m).phase
    rw [hrun] at hwhole
    cases hwhole with
    | timedOut => exact ⟨m, hm, hrun⟩
    | exited hstatus hlives hclosed =>
      rcases hnever with hnever | ⟨stream, hopen⟩
      · exact nomatch hlives.symm.trans (hnever m (by rw [hstatus]; rfl))
      · exact nomatch (hopen m).symm.trans (hclosed stream)

/-- What holds of the scenes up to one after which nothing changes holds of all. -/
theorem forall_of_still {scene : Nat → Scene} {k : Nat}
    (hstill : ∀ n, scene (n + k + 1) = scene (n + k)) {P : Scene → Prop}
    (h : ∀ n ≤ k, P (scene n)) (n : Nat) : P (scene n) := by
  rcases Nat.le_total n k with hn | hn
  · exact h n hn
  · induction n, hn using Nat.le_induction with
    | base => exact h k le_rfl
    | succ n hn ih =>
      obtain ⟨m, rfl⟩ := Nat.exists_eq_add_of_le' hn
      rw [hstill]
      exact ih

theorem fair_of_settled {scene : Nat → Scene} {k : Nat}
    (h : ∀ n, ∃ run, (scene (n + k)).watch.phase = .settled run) (n : Nat)
    (hsome : ∀ m, n ≤ m → (scene m).watch.turn?.isSome) :
    ∃ m, n ≤ m ∧ Turns (scene m) (scene (m + 1)) := by
  obtain ⟨run, hrun⟩ := h n
  have hturn := hsome (n + k) (Nat.le_add_right n k)
  rw [Watch.turn?, hrun] at hturn
  cases hturn

/-- The scenes of a program that writes a word and exits, and leaves something behind that holds
the stream of its errors open until the time is over. -/
def heldOpen : Nat → Scene
  | 0 => {}
  | n + 1 =>
    let s := heldOpen n
    let p := s.pipe .out
    match n with
    | 0 => s.setPipe .out { p with written := p.written ++ [111, 107] }
    | 1 => s.setPipe .out { p with closed := true }
    | 2 => { s with watch := s.watch.note (.exits (.exited 0)) }
    | 3 => { s with watch := s.watch.act 1 }
    | 4 => s.setPipe .out { p with taken := p.taken ++ [111, 107] }
    | 5 =>
      { s.setPipe .out { p with done := true } with
        watch := s.watch.note (.delivers .out (Text.lossy p.taken)) }
    | 6 => { s with watch := s.watch.act 1 }
    | 7 => { s with watch := s.watch.note .expires }
    | 8 => { s with watch := s.watch.act 1 }
    | _ => s

theorem heldOpen_settled (n : Nat) : (heldOpen (n + 9)).watch.phase = .settled (.ok .timedOut) := by
  induction n with
  | zero => rfl
  | succ n ih => exact ih

theorem heldOpen_behaviour : Behaviour heldOpen where
  start := rfl
  next
    | 0 => .inr (.inl (.writes .out [111, 107] rfl))
    | 1 => .inr (.inl (.closes .out))
    | 2 => .inr (.inl (.exits (.exited 0) rfl))
    | 3 => .inr (.inr (.turn rfl))
    | 4 => .inr (.inl (.reads .out [111, 107] (List.prefix_refl _)))
    | 5 => .inr (.inl (.sends .out rfl rfl rfl))
    | 6 => .inr (.inr (.turn rfl))
    | 7 => .inr (.inl .expires)
    | 8 => .inr (.inr (.turn rfl))
    | _ + 9 => .inl rfl
  fair := fair_of_settled fun n => ⟨_, heldOpen_settled n⟩

/-- The watcher never has to have this program killed. -/
theorem heldOpen_reliable : Reliable heldOpen where
  ends n h := by
    have hlives : (heldOpen n).watch.killed = false :=
      forall_of_still (fun _ => rfl) (P := fun s => s.watch.killed = false) (k := 9) (by decide) n
    exact nomatch hlives.symm.trans h
  tells := forall_of_still (fun _ => rfl) (P := fun s => s.watch.failure = none) (k := 9)
    (by decide)

/-- The scenes of a program that goes on until it is killed. -/
def outlasting : Nat → Scene
  | 0 => {}
  | n + 1 =>
    let s := outlasting n
    match n with
    | 0 => { s with watch := s.watch.note .expires }
    | 1 => { s with watch := s.watch.act 1 }
    | 2 => { s with watch := s.watch.note (.exits (.killed 9)) }
    | 3 => { s with watch := s.watch.act 1 }
    | _ => s

theorem outlasting_settled (n : Nat) :
    (outlasting (n + 4)).watch.phase = .settled (.ok .timedOut) := by
  induction n with
  | zero => rfl
  | succ n ih => exact ih

theorem outlasting_behaviour : Behaviour outlasting where
  start := rfl
  next
    | 0 => .inr (.inl .expires)
    | 1 => .inr (.inr (.turn rfl))
    | 2 => .inr (.inl (.exits (.killed 9) rfl))
    | 3 => .inr (.inr (.turn rfl))
    | _ + 4 => .inl rfl
  fair := fair_of_settled fun n => ⟨_, outlasting_settled n⟩

theorem outlasting_reliable : Reliable outlasting where
  ends n _ := ⟨n + 3, Nat.le_add_right n 3,
    outlasting_behaviour.status_mono (Nat.le_add_left 3 n) rfl⟩
  tells := forall_of_still (fun _ => rfl) (P := fun s => s.watch.failure = none) (k := 4)
    (by decide)

/-- The text of one stream has come, and yet the run has taken too long: the other one is open. And
so has that of a program that has to be killed, as the watcher sees it, too. -/
theorem captured_whole_heldOpen :
    (Behaviour heldOpen ∧ Reliable heldOpen ∧
      (heldOpen 8).watch.phase = .receiving (.exited 0) 1 "ok".toList [] ∧
      (heldOpen 8).watch.expired = true ∧ (∀ m, ((heldOpen m).pipe .err).closed = false) ∧
      ∃ m, 8 ≤ m ∧ (heldOpen m).watch.phase = .settled (.ok .timedOut)) ∧
    (Behaviour outlasting ∧ Reliable outlasting ∧ (outlasting 1).watch.expired = true ∧
      (∀ m, (outlasting m).watch.status.isSome → (outlasting m).watch.killed = true) ∧
      ∃ m, 1 ≤ m ∧ (outlasting m).watch.phase = .settled (.ok .timedOut)) ∧
    ∃ (w : Watched) (s : Scene), w.events = [.expires, .exits (.killed 9)] ∧
      Watch.Seen w.events s ∧ w.run = .ok .timedOut ∧ s.Whole w.run := by
  obtain ⟨hwhole, hseen⟩ := captured_whole
  obtain ⟨-, -, hheld, -⟩ := hwhole heldOpen heldOpen_behaviour
  obtain ⟨-, -, houtlasting, -⟩ := hwhole outlasting outlasting_behaviour
  have hopen : ∀ m, ((heldOpen m).pipe .err).closed = false :=
    forall_of_still (fun _ => rfl) (P := fun s => (s.pipe .err).closed = false) (k := 9) (by decide)
  have hkilled : ∀ m, (outlasting m).watch.status.isSome → (outlasting m).watch.killed = true :=
    forall_of_still (fun _ => rfl)
      (P := fun s => s.watch.status.isSome → s.watch.killed = true) (k := 4) (by decide)
  have hkills : Watch.Seen [.expires, .exits (.killed 9)]
      { watch := ({} : Watch).see .expires |>.see (.exits (.killed 9)) } :=
    (Watch.Seen.event .start .expires rfl).event (.exits _ rfl) rfl
  refine ⟨⟨heldOpen_behaviour, heldOpen_reliable, rfl, rfl, hopen,
    hheld heldOpen_reliable 8 rfl (.inr ⟨.err, hopen⟩)⟩,
    ⟨outlasting_behaviour, outlasting_reliable, rfl, hkilled,
      houtlasting outlasting_reliable 1 rfl (.inl hkilled)⟩,
    ⟨[.expires, .exits (.killed 9)], rfl⟩, _, rfl, hkills, rfl, hseen _ _ hkills⟩

end Behaviour

end LineShell.Program
