import Mathlib.Logic.Function.Basic
import Mathlib.Order.WellFounded
import Testplan.Proofs.DecodedLines
import Testplan.Runner
/-!
# How the output of a process arrives

Three tasks watch a process.  Each of its two streams has a **forwarder**, which reads
lines and puts them into a channel; at the first line that cannot be decoded it puts in a
line that says so, empties the pipe and ends.  A **supervisor** waits for the process to
exit, then for the first forwarder to end and then for the second, and puts in the exit.
The channel holds a bounded number of events, and one who finds it full waits.  At its
other end the **consumer** takes events out in their order, and learns that there are no
more when the channel is empty and all three tasks have dropped their ends of it.

A `Step` is one of these actions, in any order that the tasks allow; the process may exit at
any time, before, between or after the last lines of its streams.  However they follow
each other, the consumer gets an interleaving of what is forwarded of the two streams, then
the exit, and nothing after it (`OutputChannel.Reachable.delivery`); and every
interleaving can arise (`OutputChannel.exists_finished`), among them the one in which the lines
of `ProcessRun.events` stand.
-/
namespace Testplan

/-- How many events the channel holds. -/
def channelCapacity : Nat := 256

/-- **How far a forwarder has come.** -/
inductive Forwarder where
  /-- The lines yet to come. -/
  | reading (rest : List (Except String String))
  /-- A line could not be decoded, and the pipe is to be emptied. -/
  | emptying
  | ended

/-- **How far the supervisor has come.** -/
inductive Supervisor where
  /-- The process is awaited. -/
  | waiting
  /-- The process has exited, and forwarders are awaited, one after the other. -/
  | joining (streams : List OutputStream)
  | done

/-- **The channel with its tasks and its consumer.** -/
structure OutputChannel where
  forwarders : OutputStream → Forwarder
  /-- The process has exited. -/
  exited : Bool := false
  supervisor : Supervisor := .waiting
  queue : List OutputEvent := []
  /-- What the consumer has got so far. -/
  received : List OutputEvent := []
  /-- The consumer has learnt that there is no more. -/
  finished : Bool := false

/-- What is yet to be forwarded of a stream. -/
def Forwarder.pending (s : OutputStream) : Forwarder → List OutputEvent
  | reading rest => forwarded s rest
  | emptying | ended => []

namespace OutputChannel

/-- The forwarder of a stream goes on. -/
def advance (c : OutputChannel) (s : OutputStream) (f : Forwarder) : OutputChannel :=
  { c with forwarders := Function.update c.forwarders s f }

/-- Events are put into the channel. -/
def send (c : OutputChannel) (events : List OutputEvent) : OutputChannel :=
  { c with queue := c.queue ++ events }

/-- **One action** of a task, of the process or of the consumer. -/
inductive Step (exit : Option Nat) : OutputChannel → OutputChannel → Prop where
  | forward {c s text rest} (hs : c.forwarders s = .reading (.ok text :: rest))
      (room : c.queue.length < channelCapacity) :
      Step exit c ((c.advance s (.reading rest)).send [.line s text])
  | report {c s error rest} (hs : c.forwarders s = .reading (.error error :: rest))
      (room : c.queue.length < channelCapacity) :
      Step exit c ((c.advance s .emptying).send [.line s (s.errorLine error)])
  | emptied {c s} (hs : c.forwarders s = .emptying) : Step exit c (c.advance s .ended)
  /-- The stream is at its end. -/
  | close {c s} (hs : c.forwarders s = .reading []) : Step exit c (c.advance s .ended)
  | exit {c} (hrun : c.exited = false) : Step exit c { c with exited := true }
  | wake {c} (hw : c.supervisor = .waiting) (he : c.exited = true) :
      Step exit c { c with supervisor := .joining [.stdout, .stderr] }
  | join {c s rest} (hj : c.supervisor = .joining (s :: rest)) (hs : c.forwarders s = .ended) :
      Step exit c { c with supervisor := .joining rest }
  | conclude {c} (hj : c.supervisor = .joining []) (room : c.queue.length < channelCapacity) :
      Step exit c (({ c with supervisor := .done } : OutputChannel).send [.exited (exit.getD 1)])
  | receive {c e rest} (hq : c.queue = e :: rest) :
      Step exit c { c with queue := rest, received := c.received ++ [e] }
  | hangUp {c} (hq : c.queue = []) (hs : ∀ s, c.forwarders s = .ended)
      (hd : c.supervisor = .done) (hfin : c.finished = false) :
      Step exit c { c with finished := true }

/-- The process was started, with the lines that its streams will give. -/
def start (lines : OutputStream → List (Except String String)) : OutputChannel where
  forwarders s := .reading (lines s)

/-- **What comes about** once the process was started. -/
inductive Reachable (lines : OutputStream → List (Except String String)) (exit : Option Nat) :
    OutputChannel → Prop where
  | start : Reachable lines exit (start lines)
  | step {v w : OutputChannel} (h : Reachable lines exit v) (hs : Step exit v w) :
      Reachable lines exit w

/-- All that was put into the channel so far. -/
def sent (c : OutputChannel) : List OutputEvent := c.received ++ c.queue

@[simp] theorem sent_advance (c : OutputChannel) (s : OutputStream) (f : Forwarder) :
    (c.advance s f).sent = c.sent := rfl

@[simp] theorem sent_send (c : OutputChannel) (events : List OutputEvent) :
    (c.send events).sent = c.sent ++ events := (List.append_assoc ..).symm

theorem send_nil (c : OutputChannel) : c.send [] = c := by
  unfold send
  rw [List.append_nil]

/-! ## What has been sent -/

/-- The events are lines. -/
def AreLines (events : List OutputEvent) : Prop := ∀ e ∈ events, ∃ s text, e = .line s text

/-- **Nothing is lost, doubled or out of order**, and the exit is sent when both forwarders
have ended. -/
structure Sound (lines : OutputStream → List (Except String String)) (exit : Option Nat)
    (c : OutputChannel) : Prop where
  /-- What was sent of a stream and what is pending is what is forwarded of it. -/
  streams : ∀ s, c.sent.filter (·.isLineOf s) ++ (c.forwarders s).pending s =
    forwarded s (lines s)
  before : c.supervisor ≠ .done → AreLines c.sent
  joined : ∀ rest, c.supervisor = .joining rest → ∀ s, s ∉ rest → c.forwarders s = .ended
  done : c.supervisor = .done → (∀ s, c.forwarders s = .ended) ∧
    ∃ events, AreLines events ∧ c.sent = events ++ [.exited (exit.getD 1)]
  finished : c.finished = true → c.supervisor = .done ∧ c.queue = []

section Sound
variable {lines : OutputStream → List (Except String String)} {exit : Option Nat}
  {c : OutputChannel}

theorem Sound.start : Sound lines exit (start lines) where
  streams _ := rfl
  before _ := fun _ he => nomatch he
  joined := nofun
  done := nofun
  finished := nofun

/-- A forwarder that has not ended keeps the supervisor from sending the exit. -/
theorem Sound.not_done (h : Sound lines exit c) {s : OutputStream}
    (hs : c.forwarders s ≠ .ended) : c.supervisor ≠ .done :=
  fun hd => hs ((h.done hd).1 s)

/-- Before the exit was sent the consumer has not learnt that there is no more. -/
theorem Sound.not_finished (h : Sound lines exit c) (hd : c.supervisor ≠ .done) :
    c.finished ≠ true :=
  fun hfin => hd (h.finished hfin).1

/-- **A forwarder goes on**: what was pending is sent or still pending. -/
theorem Sound.forward (h : Sound lines exit c) {s : OutputStream} {f : Forwarder}
    {events : List OutputEvent} (hs : c.forwarders s ≠ .ended)
    (hevents : ∀ e ∈ events, ∃ text, e = .line s text)
    (hp : (c.forwarders s).pending s = events ++ f.pending s) :
    Sound lines exit ((c.advance s f).send events) := by
  have hdone := h.not_done hs
  have hfin := h.not_finished hdone
  refine ⟨?_, ?_, ?_, fun hd => absurd hd hdone, fun hf => absurd hf hfin⟩
  · intro t
    rw [sent_send, sent_advance, List.filter_append, OutputEvent.filter_isLineOf hevents,
      ← h.streams t]
    by_cases ht : s = t
    · subst ht
      rw [if_pos rfl, hp, List.append_assoc]
      show _ ++ (_ ++ (Function.update c.forwarders s f s).pending s) = _
      rw [Function.update_self]
    · rw [if_neg ht, List.append_nil]
      show _ ++ (Function.update c.forwarders s f t).pending t = _
      rw [Function.update_of_ne (Ne.symm ht)]
  · intro _ e he
    rw [sent_send, sent_advance] at he
    rcases List.mem_append.mp he with he | he
    · exact h.before hdone e he
    · obtain ⟨text, rfl⟩ := hevents e he
      exact ⟨s, text, rfl⟩
  · intro rest hj t ht
    have hended := h.joined rest hj t ht
    -- the forwarder that goes on is not one that was joined
    have hne : t ≠ s := fun he => hs (he ▸ hended)
    show Function.update c.forwarders s f t = .ended
    rw [Function.update_of_ne hne]
    exact hended

/-- **One action keeps all in order.** -/
theorem Sound.step (h : Sound lines exit c) {v : OutputChannel} (hs : Step exit c v) :
    Sound lines exit v := by
  cases hs with
  | @forward s text rest hf room =>
    refine h.forward (by simp [hf]) ?_ (by rw [hf]; rfl)
    exact fun e he => ⟨text, List.mem_singleton.mp he⟩
  | @report s error rest hf room =>
    refine h.forward (by simp [hf]) ?_ (by rw [hf]; rfl)
    exact fun e he => ⟨_, List.mem_singleton.mp he⟩
  | @emptied s hf =>
    rw [← send_nil (c.advance s .ended)]
    exact h.forward (by simp [hf]) (fun _ he => nomatch he) (by rw [hf]; rfl)
  | @close s hf =>
    rw [← send_nil (c.advance s .ended)]
    exact h.forward (by simp [hf]) (fun _ he => nomatch he) (by rw [hf]; rfl)
  | exit hrun => exact ⟨h.streams, h.before, h.joined, h.done, h.finished⟩
  | wake hw he =>
    have hdone : c.supervisor ≠ .done := by simp [hw]
    have hfin := h.not_finished hdone
    refine ⟨h.streams, fun _ => h.before hdone, ?_, nofun, fun hf => absurd hf hfin⟩
    rintro rest hj s hmem
    obtain rfl := Supervisor.joining.inj hj
    cases s <;> simp at hmem
  | @join s rest hj hf =>
    have hdone : c.supervisor ≠ .done := by simp [hj]
    have hfin := h.not_finished hdone
    refine ⟨h.streams, fun _ => h.before hdone, ?_, nofun, fun hf => absurd hf hfin⟩
    rintro _ he t hmem
    obtain rfl := Supervisor.joining.inj he
    by_cases ht : t = s
    · exact ht ▸ hf
    · exact h.joined _ hj t (by simp [ht, hmem])
  | conclude hj room =>
    have hdone : c.supervisor ≠ .done := by simp [hj]
    have hfin := h.not_finished hdone
    refine ⟨?_, fun hd => absurd rfl hd, nofun, ?_, fun hf => absurd hf hfin⟩
    · intro t
      rw [sent_send, List.filter_append]
      show _ ++ [] ++ _ = _
      rw [List.append_nil]
      exact h.streams t
    · intro _
      exact ⟨fun s => h.joined _ hj s List.not_mem_nil, c.sent, h.before hdone, sent_send _ _⟩
  | @receive e rest hq =>
    have hsent : (c.received ++ [e]) ++ rest = c.sent := by
      rw [sent, hq, List.append_assoc, List.singleton_append]
    refine ⟨?_, ?_, h.joined, ?_, ?_⟩
    · intro t
      show ((c.received ++ [e]) ++ rest).filter _ ++ _ = _
      rw [hsent]
      exact h.streams t
    · intro hd
      show AreLines ((c.received ++ [e]) ++ rest)
      rw [hsent]
      exact h.before hd
    · intro hd
      show _ ∧ ∃ events, AreLines events ∧ (c.received ++ [e]) ++ rest = _
      rw [hsent]
      exact h.done hd
    · intro hfin
      have hempty := (h.finished hfin).2
      rw [hq] at hempty
      cases hempty
  | hangUp hq hf hd hfin => exact ⟨h.streams, h.before, h.joined, h.done, fun _ => ⟨hd, hq⟩⟩

theorem Reachable.sound (h : Reachable lines exit c) : Sound lines exit c := by
  induction h with
  | start => exact Sound.start
  | step _ hs ih => exact ih.step hs

end Sound

/-! ## Nobody waits in vain -/

end OutputChannel

/-- How much a forwarder has yet to do, and with it the consumer. -/
def Forwarder.work : Forwarder → Nat
  | reading rest => 2 * rest.length + 2
  | emptying => 1
  | ended => 0

/-- How much the supervisor has yet to do, and with it the consumer. -/
def Supervisor.work : Supervisor → Nat
  | waiting => 5
  | joining streams => streams.length + 2
  | done => 0

namespace OutputChannel

/-- How much there is yet to do. -/
def work (c : OutputChannel) : Nat :=
  (c.forwarders .stdout).work + (c.forwarders .stderr).work + c.supervisor.work +
    c.queue.length + (!c.exited).toNat + (!c.finished).toNat

theorem work_advance (c : OutputChannel) (s : OutputStream) (f : Forwarder) :
    (c.advance s f).work + (c.forwarders s).work = c.work + f.work := by
  cases s <;> simp only [work, advance, Function.update_self, Function.update_of_ne, ne_eq,
    reduceCtorEq, not_false_eq_true] <;> omega

theorem work_send (c : OutputChannel) (events : List OutputEvent) :
    (c.send events).work = c.work + events.length := by
  simp only [work, send, List.length_append]
  omega

/-- **Every action leaves less to do.** -/
theorem Step.work_lt {exit : Option Nat} {c v : OutputChannel} (h : Step exit c v) :
    v.work < c.work := by
  cases h with
  | @forward s text rest hs room =>
    have hw := c.work_advance s (.reading rest)
    rw [hs] at hw
    simp only [Forwarder.work, List.length_cons] at hw
    rw [work_send, List.length_singleton]
    omega
  | @report s error rest hs room =>
    have hw := c.work_advance s .emptying
    rw [hs] at hw
    simp only [Forwarder.work, List.length_cons] at hw
    rw [work_send, List.length_singleton]
    omega
  | @emptied s hs =>
    have hw := c.work_advance s .ended
    rw [hs] at hw
    simp only [Forwarder.work] at hw
    omega
  | @close s hs =>
    have hw := c.work_advance s .ended
    rw [hs] at hw
    simp only [Forwarder.work] at hw
    omega
  | exit hrun => simp [work, hrun]
  | wake hw he => simp [work, hw, Supervisor.work]
  | join hj hs =>
    simp only [work, hj, Supervisor.work, List.length_cons]
    omega
  | conclude hj room =>
    rw [work_send]
    simp only [work, hj, Supervisor.work, List.length_singleton, List.length_nil]
    omega
  | receive hq =>
    simp only [work, hq, List.length_cons]
    omega
  | hangUp hq hs hd hfin => simp [work, hfin]

/-- No run goes on for ever. -/
theorem wellFounded_step (exit : Option Nat) : WellFounded fun v w => Step exit w v :=
  Subrelation.wf (fun h => h.work_lt) (InvImage.wf work Nat.lt_wfRel.wf)

/-- **Somebody can always go on**, unless both streams are at their ends, all lines have come
and the process is awaited. -/
theorem step_or_running (exit : Option Nat) {c : OutputChannel} (hfin : c.finished = false) :
    (∃ v, Step exit c v ∧ v.exited = c.exited) ∨
      (c.exited = false ∧ c.queue = [] ∧ ∀ s, c.forwarders s = .ended) := by
  cases hq : c.queue with
  | cons e rest => exact .inl ⟨_, .receive hq, rfl⟩
  | nil =>
    have room : c.queue.length < channelCapacity := by
      rw [hq]
      decide
    by_cases hended : ∀ s, c.forwarders s = .ended
    · cases hc : c.supervisor with
      | waiting =>
        cases he : c.exited with
        | true => exact .inl ⟨_, .wake hc he, he⟩
        | false => exact .inr ⟨rfl, rfl, hended⟩
      | joining streams =>
        cases streams with
        | nil => exact .inl ⟨_, .conclude hc room, rfl⟩
        | cons s rest => exact .inl ⟨_, .join hc (hended s), rfl⟩
      | done => exact .inl ⟨_, .hangUp hq hended hc hfin, rfl⟩
    · obtain ⟨s, hs⟩ := not_forall.mp hended
      cases hf : c.forwarders s with
      | reading lines =>
        cases lines with
        | nil => exact .inl ⟨_, .close hf, rfl⟩
        | cons line rest =>
          cases line with
          | ok text => exact .inl ⟨_, .forward hf room, rfl⟩
          | error e => exact .inl ⟨_, .report hf room, rfl⟩
      | emptying => exact .inl ⟨_, .emptied hf, rfl⟩
      | ended => exact absurd hf hs

/-! ## What the consumer makes of it -/

/-- **The lines that are handed on and the code that is returned.**  Whoever consumes the
events stops at the exit; without one the code is 1.  No pause comes through the channel. -/
def drive : List OutputEvent → List String × Nat
  | [] => ([], 1)
  | .line _ text :: rest => (text :: (drive rest).1, (drive rest).2)
  | .exited code :: _ => ([], code)
  | .pause _ :: rest => drive rest

/-- The events are lines of both streams, each complete and in its order. -/
structure Interleaves (lines : OutputStream → List (Except String String))
    (events : List OutputEvent) : Prop where
  areLines : AreLines events
  streams : ∀ s, events.filter (·.isLineOf s) = forwarded s (lines s)

end OutputChannel

/-- The text of a line. -/
def OutputEvent.text? : OutputEvent → Option String
  | line _ text => some text
  | _ => none

/-- The text of a line. -/
def RunnerStep.text? : RunnerStep → Option String
  | line text => some text
  | pause _ => none

namespace OutputChannel

section
variable {lines : OutputStream → List (Except String String)} {exit : Option Nat}
  {c : OutputChannel} {events : List OutputEvent}

theorem drive_lines (h : AreLines events) (code : Nat) :
    drive (events ++ [.exited code]) = (events.filterMap OutputEvent.text?, code) := by
  induction events with
  | nil => rfl
  | cons e rest ih =>
    obtain ⟨s, text, rfl⟩ := h e List.mem_cons_self
    rw [List.cons_append, drive, ih fun d hd => h d (List.mem_cons_of_mem _ hd)]
    rfl

theorem AreLines.not_exited (h : AreLines events) (code : Nat) : .exited code ∉ events := by
  intro hmem
  obtain ⟨s, text, he⟩ := h _ hmem
  cases he

/-- Once the exit was received, all was sent and received. -/
theorem Sound.done_of_exited (h : Sound lines exit c) {code : Nat}
    (hc : .exited code ∈ c.received) : c.supervisor = .done ∧ c.queue = [] := by
  have hsent : .exited code ∈ c.sent := List.mem_append_left _ hc
  have hdone : c.supervisor = .done :=
    Classical.byContradiction fun hd => (h.before hd).not_exited code hsent
  refine ⟨hdone, ?_⟩
  obtain ⟨-, events, hlines, hsent⟩ := h.done hdone
  -- the exit is the last event sent, so nothing is behind it
  rcases List.eq_nil_or_concat c.queue with hq | ⟨rest, e, hq⟩
  · exact hq
  · rw [sent, hq, List.concat_eq_append, ← List.append_assoc] at hsent
    have hinit := List.append_inj_left' hsent rfl
    exact absurd (hinit ▸ List.mem_append_left _ hc) (hlines.not_exited code)

theorem Sound.received_eq (h : Sound lines exit c) (hd : c.supervisor = .done)
    (hq : c.queue = []) : ∃ events, Interleaves lines events ∧
      c.received = events ++ [.exited (exit.getD 1)] := by
  obtain ⟨hended, events, hlines, hsent⟩ := h.done hd
  have hreceived : c.received = events ++ [.exited (exit.getD 1)] := by
    rw [← hsent, sent, hq, List.append_nil]
  refine ⟨events, ⟨hlines, fun s => ?_⟩, hreceived⟩
  have hs := h.streams s
  rw [hended s, hsent, List.filter_append] at hs
  simpa [Forwarder.pending, OutputEvent.isLineOf] using hs

/-! ## Every interleaving arises -/

theorem Reachable.ended (h : Reachable lines exit c) {s : OutputStream}
    (hp : (c.forwarders s).pending s = []) : Reachable lines exit (c.advance s .ended) := by
  cases hf : c.forwarders s with
  | reading rest =>
    rw [hf] at hp
    cases rest with
    | nil => exact h.step (.close hf)
    | cons line rest => cases line <;> cases hp
  | emptying => exact h.step (.emptied hf)
  | ended =>
    have hsame : c.advance s .ended = c := by
      unfold advance
      rw [← hf, Function.update_eq_self]
    rwa [hsame]

/-- The consumer gets a line as soon as it is sent. -/
theorem Reachable.pass (h : Reachable lines exit c) (hq : c.queue = []) {s : OutputStream}
    {text : String} {rest : List OutputEvent}
    (hp : (c.forwarders s).pending s = .line s text :: rest) :
    ∃ f : Forwarder, f.pending s = rest ∧ Reachable lines exit
      { c.advance s f with received := c.received ++ [.line s text] } := by
  have room : c.queue.length < channelCapacity := by
    rw [hq]
    decide
  have received {f : Forwarder} {e : OutputEvent}
      (hs : Reachable lines exit ((c.advance s f).send [e])) :
      Reachable lines exit { c.advance s f with received := c.received ++ [e] } := by
    have hqueue : ((c.advance s f).send [e]).queue = [e] := by simp [send, advance, hq]
    have hr := hs.step (.receive hqueue)
    simpa [send, advance, hq] using hr
  cases hf : c.forwarders s with
  | reading items =>
    rw [hf] at hp
    cases items with
    | nil => cases hp
    | cons item items =>
      cases item with
      | ok line =>
        obtain ⟨he, hrest⟩ := List.cons.inj hp
        cases he
        exact ⟨.reading items, hrest, received (h.step (.forward hf room))⟩
      | error e =>
        obtain ⟨he, hrest⟩ := List.cons.inj hp
        cases he
        exact ⟨.emptying, hrest, received (h.step (.report hf room))⟩
  | emptying =>
    rw [hf] at hp
    cases hp
  | ended =>
    rw [hf] at hp
    cases hp

/-- Lines are passed on in any order in which they may come. -/
theorem Reachable.pass_all (h : Reachable lines exit c) (hq : c.queue = [])
    (hlines : AreLines events)
    (hp : ∀ s, (c.forwarders s).pending s = events.filter (·.isLineOf s)) :
    ∃ forwarders : OutputStream → Forwarder, (∀ s, (forwarders s).pending s = []) ∧
      Reachable lines exit { c with forwarders, received := c.received ++ events } := by
  induction events generalizing c with
  | nil =>
    refine ⟨c.forwarders, hp, ?_⟩
    rw [List.append_nil]
    exact h
  | cons e rest ih =>
    obtain ⟨s, text, rfl⟩ := hlines e List.mem_cons_self
    have hs := hp s
    rw [List.filter_cons_of_pos (by simp [OutputEvent.isLineOf])] at hs
    obtain ⟨f, hf, hr⟩ := h.pass hq hs
    have hpending : ∀ t, (Function.update c.forwarders s f t).pending t =
        rest.filter (·.isLineOf t) := by
      intro t
      by_cases ht : t = s
      · subst ht
        rw [Function.update_self]
        exact hf
      · rw [Function.update_of_ne ht, hp t,
          List.filter_cons_of_neg (by simpa [OutputEvent.isLineOf] using Ne.symm ht)]
    obtain ⟨forwarders, hnone, hall⟩ := ih hr hq
      (fun d hd => hlines d (List.mem_cons_of_mem _ hd)) hpending
    refine ⟨forwarders, hnone, ?_⟩
    simpa [advance] using hall

/-- Once both forwarders have ended the exit is sent, and the consumer gets it. -/
theorem Reachable.conclude {forwarders : OutputStream → Forwarder} {received : List OutputEvent}
    (h : Reachable lines exit { forwarders, received }) (hended : ∀ s, forwarders s = .ended) :
    ∃ v, Reachable lines exit v ∧ v.finished = true ∧
      v.received = received ++ [.exited (exit.getD 1)] := by
  have hexited := h.step (.exit rfl)
  have hjoining := hexited.step (.wake rfl rfl)
  have hjoined := (hjoining.step (.join rfl (hended .stdout))).step (.join rfl (hended .stderr))
  have hdone := hjoined.step (.conclude rfl (by show 0 < channelCapacity; decide))
  have hreceived := hdone.step (.receive rfl)
  exact ⟨_, hreceived.step (.hangUp rfl hended rfl rfl), rfl, rfl⟩

/-- **Every interleaving arises.** -/
theorem exists_finished (exit : Option Nat) (h : Interleaves lines events) :
    ∃ v, Reachable lines exit v ∧ v.finished = true ∧
      v.received = events ++ [.exited (exit.getD 1)] := by
  have hstart : Reachable lines exit (start lines) := .start
  obtain ⟨forwarders, hnone, hlines⟩ :=
    hstart.pass_all rfl h.areLines fun s => (h.streams s).symm
  have hstderr : (Function.update forwarders .stdout .ended .stderr).pending .stderr = [] := by
    rw [Function.update_of_ne (by decide)]
    exact hnone .stderr
  have hended := (hlines.ended (hnone .stdout)).ended hstderr
  exact hended.conclude fun s => by cases s <;> simp [advance]

end

/-! ## The output of a process -/

/-- The events of a process without its pauses are lines of both streams and its exit. -/
theorem interleaves_events (p : ProcessRun) :
    ∃ events, Interleaves (fun s => decoded (p.written s)) events ∧
      p.events.filter (fun e => !e.isPause) = events ++ [.exited p.code] ∧
      drive p.events = (events.filterMap OutputEvent.text?, p.code) ∧
      (stepsOf p.events).filterMap RunnerStep.text? = events.filterMap OutputEvent.text? := by
  let events := (eventsFrom {} {} p.steps).filter fun e => !e.isPause
  have hfilter : p.events.filter (fun e => !e.isPause) = events ++ [.exited p.code] := by
    rw [ProcessRun.events, List.filter_append]
    rfl
  have hlines : AreLines events := by
    intro e he
    obtain ⟨hmem, hpause⟩ := List.mem_filter.mp he
    rcases line_or_pause_of_mem_eventsFrom hmem with hline | ⟨ms, rfl⟩
    · exact hline
    · cases hpause
  -- pauses are neither lines of a stream nor handed on
  have hdrive (l : List OutputEvent) : drive (l.filter fun e => !e.isPause) = drive l := by
    induction l with
    | nil => rfl
    | cons e rest ih => cases e <;> simp [drive, ih]
  have htexts (l : List OutputEvent) : (stepsOf l).filterMap RunnerStep.text? =
      (l.filter fun e => !e.isPause).filterMap OutputEvent.text? := by
    rw [stepsOf, List.filterMap_filterMap, List.filterMap_filter]
    congr 1
    funext e
    cases e <;> rfl
  refine ⟨events, ⟨hlines, fun s => ?_⟩, hfilter, ?_, ?_⟩
  · rw [← p.filter_events s, ProcessRun.events, List.filter_append, List.filter_filter]
    show _ = (eventsFrom {} {} p.steps).filter _ ++ []
    rw [List.append_nil]
    refine List.filter_congr fun e _ => ?_
    cases e <;> simp [OutputEvent.isLineOf]
  · rw [← hdrive, hfilter, drive_lines hlines]
  · rw [htexts, hfilter, List.filterMap_append]
    show _ ++ [] = _
    rw [List.append_nil]

/-- **How the output of a process arrives.**  However its tasks and the process follow each
other, the consumer gets an interleaving of what is forwarded of the two streams, then
exactly one exit, with the exit code or with 1 if there is none, and nothing after it; it
hands on the lines in that order and returns that code.  No run goes on for ever, and
none stops before; while the process does not exit, all that it wrote arrives.  What is
seen of the run of a process is one of these interleavings. -/
theorem Reachable.delivery {lines : OutputStream → List (Except String String)}
    {exit : Option Nat} {c : OutputChannel} (h : Reachable lines exit c) :
    -- the exit comes last, once, and after all lines
    ((c.finished = true ∨ ∃ code, .exited code ∈ c.received) →
      ∃ events, Interleaves lines events ∧ c.received = events ++ [.exited (exit.getD 1)] ∧
        drive c.received = (events.filterMap OutputEvent.text?, exit.getD 1)) ∧
    -- what has come of a stream is a beginning of what is forwarded of it
    (∀ s, c.received.filter (·.isLineOf s) <+: forwarded s (lines s)) ∧
    -- nobody waits in vain
    (WellFounded fun v w => Step exit w v) ∧
    ((∀ v, ¬ Step exit c v) → c.finished = true) ∧
    (c.finished = false → (∃ v, Step exit c v ∧ v.exited = c.exited) ∨
      (c.exited = false ∧ c.queue = [] ∧ ∀ s, c.forwarders s = .ended)) ∧
    -- what is seen of a process arises
    ∀ p : ProcessRun, p.exit = exit → (∀ s, decoded (p.written s) = lines s) →
      ∃ v, Reachable lines exit v ∧ v.finished = true ∧
        v.received = p.events.filter (fun e => !e.isPause) ∧
        drive v.received = ((stepsOf p.events).filterMap RunnerStep.text?, p.code) := by
  have hsound := h.sound
  refine ⟨?_, ?_, wellFounded_step exit, ?_, step_or_running exit, ?_⟩
  · intro hlast
    have hdone : c.supervisor = .done ∧ c.queue = [] := by
      rcases hlast with hfin | ⟨code, hcode⟩
      · exact hsound.finished hfin
      · exact hsound.done_of_exited hcode
    obtain ⟨events, hevents, hreceived⟩ := hsound.received_eq hdone.1 hdone.2
    refine ⟨events, hevents, hreceived, ?_⟩
    rw [hreceived, drive_lines hevents.areLines]
  · intro s
    refine ⟨c.queue.filter (·.isLineOf s) ++ (c.forwarders s).pending s, ?_⟩
    rw [← List.append_assoc, ← List.filter_append]
    exact hsound.streams s
  · intro hstuck
    cases hfin : c.finished with
    | true => rfl
    | false =>
      rcases step_or_running exit hfin with ⟨v, hv, -⟩ | ⟨hrun, -⟩
      · exact absurd hv (hstuck v)
      · exact absurd (.exit hrun) (hstuck _)
  · rintro p rfl hp
    obtain ⟨events, hevents, hseen, -, htexts⟩ := interleaves_events p
    obtain rfl : (fun s => decoded (p.written s)) = lines := funext hp
    obtain ⟨v, hv, hfin, hreceived⟩ := exists_finished p.exit hevents
    refine ⟨v, hv, hfin, hreceived.trans hseen.symm, ?_⟩
    rw [hreceived, drive_lines hevents.areLines, htexts]
    rfl

/-- One stream gives a line and then something that is no text, the other a line. -/
def brokenLines : OutputStream → List (Except String String)
  | .stdout => [.ok "one", .error undecodable, .ok "lost"]
  | .stderr => [.ok "two"]

/-- The process is ended by a signal. -/
theorem delivery_brokenLines : ∃ v, Reachable brokenLines none v ∧ v.finished = true ∧
    drive v.received = (["one", "two", "STDOUT 읽기 오류: Unable to decode input as UTF8"], 1) := by
  let events : List OutputEvent := [.line .stdout "one", .line .stderr "two",
    .line .stdout (OutputStream.stdout.errorLine undecodable)]
  have hevents : Interleaves brokenLines events := by
    refine ⟨by simp [AreLines, events], fun s => ?_⟩
    cases s <;> rfl
  obtain ⟨v, hv, hfin, hreceived⟩ := exists_finished none hevents
  refine ⟨v, hv, hfin, ?_⟩
  obtain ⟨others, -, hothers, hdrive⟩ := hv.delivery.1 (.inl hfin)
  obtain rfl : events = others := List.append_inj_left' (hreceived.symm.trans hothers) rfl
  rw [hdrive]
  rfl

end OutputChannel

end Testplan
