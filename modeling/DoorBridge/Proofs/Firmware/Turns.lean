import DoorBridge.Firmware.Run
import DoorBridge.Proofs.Engine.Transmit

/-!
# Proofs.Firmware.Turns — the tasks in any order

* A `Turn` is a step of one task or a move of the clock.  A row of turns leaves open which of the ready tasks goes on,
  and when; what the scheduler does is one such row (`exists_turns_run`).
* `Board.Drifts` and `Firmware.Drifts` say that time has passed, and that the engine and the beat have had no part in it.
* `Board.Leads` and `Firmware.Follows` say less: the beat, its slots and the countdown are as they were.
* What each part of the engine's work keeps, its start and its servicing keep (`keeps_startEngine`, `keeps_service`).
* `turned_turn` is what a turn may do to those three: nothing, a step of the beat, or something that the engine takes.
-/

namespace DoorBridge

/-! ## Turns -/

/-- What may come next: a task goes on, if it can, or the clock moves on. -/
inductive Turn where
  | task (task : Task)
  /-- The clock moves to an instant, if that lies ahead, and the first stimulus happens, if it is due by then. -/
  | advance (t : Nat)
  deriving DecidableEq, Repr

namespace Firmware

def turn (f : Firmware) : Turn → Firmware
  | .task task => (f.step? task).getD f
  | .advance t => f.onBoard fun b => undergoDue { b with now := max b.now t }

def turns (f : Firmware) (row : List Turn) : Firmware := row.foldl turn f

theorem turns_cons (f : Firmware) (t : Turn) (row : List Turn) : f.turns (t :: row) = (f.turn t).turns row := rfl

/-- Whether something holds before a row of turns and after each of them. -/
def throughout (holds : Firmware → Bool) (f : Firmware) : List Turn → Bool
  | [] => holds f
  | t :: row => holds f && (f.turn t).throughout holds row

theorem throughout_cons {holds : Firmware → Bool} {f : Firmware} {t : Turn} {row : List Turn}
    (h : f.throughout holds (t :: row) = true) : holds f = true ∧ (f.turn t).throughout holds row = true := by
  simpa [throughout] using h

/-- What holds throughout holds in the beginning. -/
theorem holds_of_throughout {holds : Firmware → Bool} {f : Firmware} {row : List Turn}
    (h : f.throughout holds row = true) : holds f = true := by
  cases row with
  | nil => exact h
  | cons t row => exact (throughout_cons h).1

/-- What holds throughout holds before and after every turn. -/
theorem holds_at_turn {holds : Firmware → Bool} {f : Firmware} {earlier later : List Turn} {t : Turn}
    (h : f.throughout holds (earlier ++ t :: later) = true) :
    holds (f.turns earlier) = true ∧ holds ((f.turns earlier).turn t) = true := by
  induction earlier generalizing f with
  | nil =>
    obtain ⟨hnow, hlater⟩ := throughout_cons h
    exact ⟨hnow, holds_of_throughout hlater⟩
  | cons first earlier ih => exact ih (throughout_cons h).2

end Firmware

/-- A step of the scheduler is a turn, or none. -/
theorem Round.exists_turns_next {r next : Round} {last : Nat} (h : r.next? last = some next) :
    ∃ row, next.firmware = r.firmware.turns row := by
  rw [Round.next?] at h
  split at h
  · contradiction
  split at h
  · next task turns hturns =>
    split at h
    · next firmware hstep =>
      obtain rfl := Option.some.inj h
      refine ⟨[.task task], ?_⟩
      show firmware = (r.firmware.step? task).getD r.firmware
      rw [hstep, Option.getD_some]
    · obtain rfl := Option.some.inj h
      exact ⟨[], rfl⟩
  · split at h
    · obtain rfl := Option.some.inj h
      exact ⟨[], rfl⟩
    · obtain ⟨firmware, hadvance, rfl⟩ := Option.map_eq_some_iff.mp h
      rw [Firmware.advance?] at hadvance
      split at hadvance
      · next t hnext =>
        split at hadvance
        · exact ⟨[.advance t], (Option.some.inj hadvance).symm⟩
        · contradiction
      · contradiction

theorem Round.exists_turns_run (last : Nat) : ∀ (fuel : Nat) (r : Round),
    ∃ row, Round.run last fuel r = r.firmware.turns row
  | 0, r => ⟨[], rfl⟩
  | fuel + 1, r => by
    rw [Round.run]
    split
    · next next hnext =>
      obtain ⟨row, hrow⟩ := Round.exists_turns_next hnext
      obtain ⟨more, hmore⟩ := Round.exists_turns_run last fuel next
      refine ⟨row ++ more, ?_⟩
      rw [hmore, hrow]
      exact List.foldl_append.symm
    · exact ⟨[], rfl⟩

/-- **What the scheduler does is a row of turns.** -/
theorem Firmware.exists_turns_run (f : Firmware) (last : Nat) : ∃ row, f.run last = f.turns row :=
  Round.exists_turns_run last _ { firmware := f }

/-! ## Time passes on the board -/

namespace Board

/-- The second board comes later, and the slots of the beat are as they were. -/
structure Leads (b c : Board) : Prop where
  now : b.now ≤ c.now
  signals : c.signals = b.signals

/-- The second board comes later.  Nothing was told to the beat, published or announced; there may be more log records. -/
structure Drifts (b c : Board) : Prop extends b.Leads c where
  publisher : c.publisher = b.publisher
  doorOut : c.doorOut = b.doorOut
  log : ∃ records, c.log = records ++ b.log

variable {b c d : Board}

theorem Leads.refl (b : Board) : b.Leads b := ⟨Nat.le_refl _, rfl⟩

theorem Leads.trans (h : b.Leads c) (h' : c.Leads d) : b.Leads d :=
  ⟨h.now.trans h'.now, h'.signals.trans h.signals⟩

/-- Whatever else changes on the board. -/
theorem Drifts.of_same (hnow : b.now ≤ c.now) (hsignals : c.signals = b.signals) (hpublisher : c.publisher = b.publisher)
    (hdoorOut : c.doorOut = b.doorOut) (hlog : c.log = b.log) : b.Drifts c :=
  ⟨⟨hnow, hsignals⟩, hpublisher, hdoorOut, [], hlog⟩

theorem Drifts.refl (b : Board) : b.Drifts b := .of_same (Nat.le_refl _) rfl rfl rfl rfl

theorem Drifts.trans (h : b.Drifts c) (h' : c.Drifts d) : b.Drifts d := by
  obtain ⟨records, hlog⟩ := h.log
  obtain ⟨more, hmore⟩ := h'.log
  refine ⟨h.toLeads.trans h'.toLeads, h'.publisher.trans h.publisher, h'.doorOut.trans h.doorOut, more ++ records, ?_⟩
  rw [hmore, hlog, List.append_assoc]

theorem leads_reportOne (b : Board) (e : Event) : b.Leads (b.reportOne e) := by
  cases e <;> exact ⟨Nat.le_refl _, rfl⟩

theorem leads_report (b : Board) (e : Event) : b.Leads (b.report e) := by
  cases e with
  | log level text => exact ⟨Nat.le_refl _, rfl⟩
  | note n =>
    have hpublish : b.Leads ((b.publisher.publishEvents n).foldl reportOne b) :=
      List.foldlRecOn _ reportOne (.refl b) fun c hc e _ => hc.trans (leads_reportOne c e)
    exact hpublish.trans (leads_reportOne _ (.note n))

theorem leads_reportAll (b : Board) (events : List Event) : b.Leads (b.reportAll events) :=
  List.foldlRecOn events report (.refl b) fun c hc e _ => hc.trans (leads_report c e)

theorem drifts_log (b : Board) (level : LogLevel) (text : String) : b.Drifts (b.report (.log level text)) :=
  ⟨⟨Nat.le_refl _, rfl⟩, rfl, rfl, [_], rfl⟩

/-- Reporting what is no notification only writes to the log. -/
theorem drifts_reportAll {events : List Event} (hlogs : Event.notifications events = []) (b : Board) :
    b.Drifts (b.reportAll events) := by
  induction events generalizing b with
  | nil => exact .refl b
  | cons e events ih =>
    cases e with
    | log level text => exact (b.drifts_log level text).trans (ih hlogs _)
    | note n => contradiction

theorem drifts_loseEdge (b : Board) : b.Drifts b.loseEdge := by
  have hlost : b.Drifts { b with lostEdges := b.lostEdges + 1 } := .of_same (Nat.le_refl _) rfl rfl rfl rfl
  rw [loseEdge]
  split
  · exact hlost.trans (drifts_log _ _ _)
  · exact hlost

theorem drifts_captureEdge (b : Board) (high : Bool) : b.Drifts (b.captureEdge high) := by
  have hlevel : b.Drifts { b with busLevel := high, lineLevel := high } := .of_same (Nat.le_refl _) rfl rfl rfl rfl
  rw [captureEdge]
  split
  · exact hlevel
  split
  · exact hlevel.trans (.of_same (Nat.le_refl _) rfl rfl rfl rfl)
  · exact hlevel.trans (drifts_loseEdge _)

theorem drifts_undergo (b : Board) (h : Happening) : b.Drifts (b.undergo h) := by
  cases h with
  | level input high =>
    cases input with
    | bus =>
      rw [undergo, drive]
      split
      · exact .refl b
      · exact drifts_captureEdge b high
    | beam =>
      rw [undergo, drive]
      split <;> exact .of_same (Nat.le_refl _) rfl rfl rfl rfl
  | request r =>
    rw [undergo]
    split <;> exact .of_same (Nat.le_refl _) rfl rfl rfl rfl
  | refuses refuses => exact .of_same (Nat.le_refl _) rfl rfl rfl rfl

theorem drifts_undergoUntil (t : Nat) : ∀ (plan : List Stimulus) (b : Board), b.Drifts (undergoUntil t plan b)
  | [], b => .of_same (Nat.le_refl _) rfl rfl rfl rfl
  | s :: plan, b => by
    rw [undergoUntil]
    split
    · have hlater : b.Drifts { b with now := max b.now s.time } := .of_same (Nat.le_max_left _ _) rfl rfl rfl rfl
      exact (hlater.trans (drifts_undergo _ s.what)).trans (drifts_undergoUntil t plan _)
    · exact .of_same (Nat.le_refl _) rfl rfl rfl rfl

theorem drifts_waitUntil (t : Nat) (b : Board) : b.Drifts (b.waitUntil t) := by
  rw [waitUntil]
  split
  · exact .refl b
  · next hahead =>
    obtain ⟨⟨_, hsignals⟩, hpublisher, hdoorOut, hlog⟩ := drifts_undergoUntil t b.plan b
    exact ⟨⟨Nat.le_of_not_le hahead, hsignals⟩, hpublisher, hdoorOut, hlog⟩

/-! ### The bus -/

theorem drifts_setBreak (s : LineSettings) (held : Bool) (b : Board) : b.Drifts (Transmitter.setBreak s held b) :=
  .of_same (Nat.le_refl _) rfl rfl rfl rfl

theorem drifts_holdLevels (bitTime : Nat) : ∀ (levels : List Bool) (start : Nat) (b : Board),
    b.Drifts (Transmitter.holdLevels bitTime start levels b)
  | [], start, b => .refl b
  | level :: rest, start, b => by
    have hlevel : b.Drifts (LinePin.setLevel level b) := .of_same (Nat.le_refl _) rfl rfl rfl rfl
    exact (hlevel.trans (drifts_waitUntil _ _)).trans (drifts_holdLevels bitTime rest _ _)

theorem drifts_writeFrom (s : LineSettings) (deadline : Nat) : ∀ (bytes : List UInt8) (start : Nat) (b : Board),
    b.Drifts (Transmitter.writeFrom s deadline start bytes b).2
  | [], start, b => .refl b
  | byte :: rest, start, b => by
    rw [Transmitter.writeFrom]
    split
    · exact drifts_setBreak s false b
    · exact (drifts_holdLevels s.bitTime _ start b).trans (drifts_writeFrom s deadline rest _ _)

theorem drifts_write (s : LineSettings) (bytes : List UInt8) (b : Board) : b.Drifts (Transmitter.write s bytes b).2 :=
  drifts_writeFrom s _ bytes _ b

/-- Whatever the engine asks of the bus, nothing but time passes. -/
theorem keeps_drifts (b : Board) : Bus.Keeps b.Drifts where
  lineBusy h := h
  setAsserted held c h := h.trans (.of_same (Nat.le_refl _) rfl rfl rfl rfl)
  delay time c h := h.trans (drifts_waitUntil (c.now + time) c)
  write row c h := by
    have hstart : c.Drifts { c with transmitting := true } := .of_same (Nat.le_refl _) rfl rfl rfl rfl
    have hwritten := hstart.trans (drifts_write c.line row _)
    exact (h.trans hwritten).trans (.of_same (Nat.le_refl _) rfl rfl rfl rfl)

end Board

/-! ## The parts of the engine's work -/

namespace Firmware

/-- The firmware after a part of the engine's work, which is reported. -/
def work (f : Firmware) (e : Engine) (b : Board) : Firmware := settle { f with engine := e, board := b }

variable {P : Firmware → Prop} {f : Firmware}

/-- A servicing pass is a tick, a try to send and a flush.  What each of them keeps, the pass keeps. -/
theorem keeps_service (htick : P (f.work (f.engine.tick f.board.millis) f.board))
    (hsend : ∀ g, P g → P (g.work (g.engine.transmitNext g.board f.board.millis).2.1
      (g.engine.transmitNext g.board f.board.millis).2.2))
    (hflush : ∀ g, P g → P (g.work (g.engine.flush g.board.store).2.1
      { g.board with store := (g.engine.flush g.board.store).2.2 })) : P f.service := hflush _ (hsend _ htick)

/-- The engine is started, which is logged, and then serviced. -/
theorem keeps_startEngine {entropy : UInt32} (h : P f)
    (hlog : ∀ g (level : LogLevel) (text : String), P g → P (g.report (.log level text)))
    (hstart : ∀ g, P g → P (g.work (g.engine.start g.board.store entropy g.board.millis).2.1
      { g.board with store := (g.engine.start g.board.store entropy g.board.millis).2.2 }))
    (hserve : ∀ g, P g → P g.service.sleep) : P (f.startEngine entropy) := by
  have hstarted := hstart _ (hlog f .info "Comms task started" h)
  refine hserve _ ?_
  split
  · exact hstarted
  · exact hlog _ _ _ hstarted

end Firmware

/-! ## Time passes for the firmware -/

/-- A try to send leaves the countdown alone. -/
theorem Engine.countdown_transmitNext {β : Type} [Bus β] (e : Engine) (bus : β) (now : Nat) :
    (e.transmitNext bus now).2.1.countdown = e.countdown := by
  obtain ⟨new, -, hattempt⟩ := e.attempt_transmitNext (WireLog.mk bus []) now
  dsimp only at hattempt
  generalize e.transmitNext bus now = tried at hattempt ⊢
  obtain ⟨answer, engine, bus⟩ := tried
  cases hattempt <;> rfl

namespace Firmware

/-- The second firmware comes later; the beat, its slots and the countdown are as they were. -/
structure Follows (f g : Firmware) : Prop where
  board : f.board.Leads g.board
  beat : g.deadline? .beat = f.deadline? .beat
  armed : g.armed = f.armed
  countdown : g.engine.countdown = f.engine.countdown

/-- The second firmware comes later; nothing happened to the engine and the beat, and nothing was published or
announced. -/
structure Drifts (f g : Firmware) : Prop where
  board : f.board.Drifts g.board
  beat : g.deadline? .beat = f.deadline? .beat
  armed : g.armed = f.armed
  engine : g.engine = f.engine

variable {f g h : Firmware}

theorem Drifts.follows (h : f.Drifts g) : f.Follows g := ⟨h.board.toLeads, h.beat, h.armed, congrArg (·.countdown) h.engine⟩

theorem Drifts.trans (hfg : f.Drifts g) (hgh : g.Drifts h) : f.Drifts h where
  board := hfg.board.trans hgh.board
  beat := hgh.beat.trans hfg.beat
  armed := hgh.armed.trans hfg.armed
  engine := hgh.engine.trans hfg.engine

theorem drifts_board {b : Board} (hboard : f.board.Drifts b) : f.Drifts { f with board := b } := ⟨hboard, rfl, rfl, rfl⟩

theorem drifts_log (f : Firmware) (level : LogLevel) (text : String) : f.Drifts (f.report (.log level text)) :=
  drifts_board (f.board.drifts_log level text)

theorem Follows.refl (f : Firmware) : f.Follows f := ⟨.refl _, rfl, rfl, rfl⟩

theorem Follows.trans (hfg : f.Follows g) (hgh : g.Follows h) : f.Follows h where
  board := hfg.board.trans hgh.board
  beat := hgh.beat.trans hfg.beat
  armed := hgh.armed.trans hfg.armed
  countdown := hgh.countdown.trans hfg.countdown

theorem follows_board {b : Board} (hboard : f.board.Leads b) : f.Follows { f with board := b } :=
  ⟨hboard, rfl, rfl, rfl⟩

theorem follows_report (f : Firmware) (e : Event) : f.Follows (f.report e) := follows_board (f.board.leads_report e)

/-- The engine may go on in any way that leaves the countdown alone. -/
theorem follows_engine {e : Engine} {b : Board} (hcountdown : e.countdown = f.engine.countdown)
    (hboard : f.board.Leads b) : f.Follows { f with engine := e, board := b } := ⟨hboard, rfl, rfl, hcountdown⟩

theorem follows_settle (f : Firmware) : f.Follows f.settle :=
  follows_engine rfl (f.board.leads_reportAll f.engine.events)

/-- A part of the engine's work: it leaves the countdown alone, and is reported. -/
theorem follows_work {e : Engine} {b : Board} (hcountdown : e.countdown = f.engine.countdown)
    (hboard : f.board.Leads b) : f.Follows (f.work e b) := (follows_engine hcountdown hboard).trans (follows_settle _)

theorem follows_service (f : Firmware) : f.Follows f.service := by
  refine keeps_service ?_ (fun g hg => hg.trans ?_) fun g hg => hg.trans ?_
  · exact follows_work (Engine.countdown_after f.engine (.tick f.board.millis : Operation ChipStore)) (.refl _)
  · have hboard := (Board.keeps_drifts g.board).transmitNext g.engine f.board.millis (.refl _)
    exact follows_work (g.engine.countdown_transmitNext g.board _) hboard.toLeads
  · exact follows_work (Engine.countdown_after g.engine (.flush g.board.store)) ⟨Nat.le_refl _, rfl⟩

theorem follows_sleep (f : Firmware) : f.Follows f.sleep := ⟨.refl _, rfl, rfl, rfl⟩

theorem follows_awaitRestart (f : Firmware) (deadline : Nat) : f.Follows (f.awaitRestart deadline) :=
  ⟨.refl _, rfl, rfl, rfl⟩

theorem follows_restartOrSleep (f : Firmware) : f.Follows f.restartOrSleep := by
  rw [restartOrSleep]
  split
  · next reason hreason =>
    have htaken : f.Follows (f.onBoard fun b => { b with publisher := { b.publisher with restart? := none } }) :=
      follows_board ⟨Nat.le_refl _, rfl⟩
    exact (htaken.trans (follows_report _ _)).trans (follows_awaitRestart _ _)
  · exact follows_sleep f

theorem follows_startEngine (f : Firmware) (entropy : UInt32) : f.Follows (f.startEngine entropy) := by
  refine keeps_startEngine (.refl f) (fun g _ _ hg => hg.trans (follows_report g _)) (fun g hg => hg.trans ?_)
    fun g hg => hg.trans ((follows_service g).trans (follows_sleep _))
  exact follows_work (Engine.countdown_after g.engine (.start g.board.store entropy g.board.millis)) ⟨Nat.le_refl _, rfl⟩

/-! ### The tasks that have nothing to do with the countdown -/

theorem drifts_pushByte (b : Board) (byte : UInt8) : b.Drifts (pushByte b byte) := by
  have hreport : b.Drifts (b.report (.trace s!"RX {hexText byte.toNat}")) := b.drifts_log _ _
  rw [pushByte]
  generalize b.report (.trace s!"RX {hexText byte.toNat}") = told at hreport ⊢
  refine hreport.trans ?_
  split
  · exact .of_same (Nat.le_refl _) rfl rfl rfl rfl
  · exact (told.drifts_log .warn "RX queue full, dropping byte").trans (.of_same (Nat.le_refl _) rfl rfl rfl rfl)

theorem drifts_receiver (hstep : f.stepReceiver? = some g) : f.Drifts g := by
  rw [stepReceiver?] at hstep
  split at hstep
  · obtain rfl := Option.some.inj hstep
    have hbegun : f.Drifts { f with receiver? := some (.new f.board.line f.board.now) } := ⟨.refl _, rfl, rfl, rfl⟩
    exact hbegun.trans (drifts_log _ _ _)
  · obtain ⟨⟨⟨byte, r⟩, edges⟩, -, rfl⟩ := Option.map_eq_some_iff.mp hstep
    refine ⟨?_, rfl, rfl, rfl⟩
    have hread : f.board.Drifts { f.board with edges, receiving := r.decoder.isBusy } :=
      .of_same (Nat.le_refl _) rfl rfl rfl rfl
    cases byte with
    | none => exact hread
    | some byte => exact hread.trans (drifts_pushByte _ byte)

theorem drifts_beamCounter (hstep : f.stepBeamCounter? = some g) : f.Drifts g := by
  rw [stepBeamCounter?] at hstep
  split at hstep
  · obtain rfl := Option.some.inj hstep
    exact (drifts_log f _ _).trans (drifts_board (.of_same (Nat.le_refl _) rfl rfl rfl rfl))
  · obtain ⟨c, -, rfl⟩ := Option.map_eq_some_iff.mp hstep
    exact drifts_board (.of_same (Nat.le_refl _) rfl rfl rfl rfl)

theorem drifts_showObstruction (b : Board) (obstructed : Bool) : b.Drifts (showObstruction b obstructed) :=
  (b.drifts_log _ _).trans (.of_same (Nat.le_refl _) rfl rfl rfl rfl)

theorem drifts_beamSampler (hstep : f.stepBeamSampler? = some g) : f.Drifts g := by
  rw [stepBeamSampler?] at hstep
  split at hstep
  · obtain rfl := Option.some.inj hstep
    have hbegun : f.Drifts { f with beamSampler? := some (.new f.board.now) } := ⟨.refl _, rfl, rfl, rfl⟩
    exact hbegun.trans (drifts_log _ _ _)
  · obtain ⟨⟨transition, s, c⟩, -, rfl⟩ := Option.map_eq_some_iff.mp hstep
    refine ⟨?_, rfl, rfl, rfl⟩
    have hsampled : f.board.Drifts { f.board with beam? := some c } := .of_same (Nat.le_refl _) rfl rfl rfl rfl
    cases transition with
    | none => exact hsampled
    | some obstructed => exact hsampled.trans (drifts_showObstruction _ obstructed)

theorem follows_announcer (hstep : f.stepAnnouncer? = some g) : f.Follows g := by
  rw [stepAnnouncer?] at hstep
  split at hstep
  · obtain rfl := Option.some.inj hstep
    have hbegun : f.Follows { f with announcing := true } := ⟨.refl _, rfl, rfl, rfl⟩
    exact hbegun.trans (follows_report _ _)
  · obtain ⟨⟨n, publisher⟩, -, rfl⟩ := Option.map_eq_some_iff.mp hstep
    have htaken : f.board.Leads { f.board with publisher } := ⟨Nat.le_refl _, rfl⟩
    exact follows_board (htaken.trans ((Board.leads_report _ n.announcement).trans ⟨Nat.le_refl _, rfl⟩))

theorem drifts_showIndicator (f : Firmware) (i : Indicator) : f.Drifts (f.showIndicator i) :=
  ⟨.of_same (Nat.le_refl _) rfl rfl rfl rfl, rfl, rfl, rfl⟩

theorem drifts_indicator (hstep : f.stepIndicator? = some g) : f.Drifts g := by
  rw [stepIndicator?] at hstep
  split at hstep
  · obtain rfl := Option.some.inj hstep
    exact drifts_showIndicator f _
  · obtain ⟨⟨i, traffic⟩, -, rfl⟩ := Option.map_eq_some_iff.mp hstep
    have hshown : f.Drifts (f.onBoard ({ · with traffic })) := drifts_board (.of_same (Nat.le_refl _) rfl rfl rfl rfl)
    exact hshown.trans (drifts_showIndicator _ i)

theorem drifts_undergoDue (b : Board) : b.Drifts (undergoDue b) := by
  unfold undergoDue
  split
  · next s plan hplan =>
    split
    · have hdropped : b.Drifts { b with plan } := .of_same (Nat.le_refl _) rfl rfl rfl rfl
      exact hdropped.trans (Board.drifts_undergo _ s.what)
    · exact .refl b
  · exact .refl b

theorem drifts_advance (f : Firmware) (t : Nat) : f.Drifts (f.turn (.advance t)) := by
  have hlater : f.board.Drifts { f.board with now := max f.board.now t } :=
    .of_same (Nat.le_max_left _ _) rfl rfl rfl rfl
  exact drifts_board (hlater.trans (drifts_undergoDue _))

/-! ## What a turn does to the countdown and its beat -/

/-- What the engine takes in its next step. -/
def takes? (f : Firmware) : Option Wake :=
  match f.engineTask with
  | .waiting wakeAt? => (wake? f.board wakeAt?).map (·.1)
  | _ => none

/-- The beat has made a step. -/
structure Beaten (f g : Firmware) : Prop where
  step : ∃ beat events, f.beat? = some beat ∧ ∃ next, g.beat? = some next ∧
    beat.step? f.board.now f.board.signals = some (next, g.board.signals, events)
  now : f.board.now ≤ g.board.now
  armed : g.armed = f.armed
  countdown : g.engine.countdown = f.engine.countdown

/-- The engine has taken something. -/
structure Woken (w : Wake) (f g : Firmware) : Prop where
  takes : f.takes? = some w
  now : f.board.now ≤ g.board.now
  beat : g.deadline? .beat = f.deadline? .beat
  countdown : g.engine.countdown = (f.engine.wake w f.board.millis).countdown
  armed : g.armed = g.engine.countdown.isActive
  order : g.board.signals.order? = if g.armed = f.armed then f.board.signals.order? else some g.armed
  raised : if w = .beat then f.board.signals.raised = true ∧ g.board.signals.raised = false
    else g.board.signals.raised = f.board.signals.raised

/-- What a turn may do to the countdown and its beat. -/
inductive Turned (f g : Firmware) : Prop
  | idle (h : f.Follows g)
  | beat (h : f.Beaten g)
  | wake {w : Wake} (h : f.Woken w g)

theorem turned_beat (hstep : f.stepBeat? = some g) : f.Turned g := by
  rw [stepBeat?] at hstep
  split at hstep
  · next hnew =>
    obtain rfl := Option.some.inj hstep
    have hbegun : f.Follows { f with beat? := some .stopped } := by
      refine ⟨.refl _, ?_, rfl, rfl⟩
      show none = f.beat?.bind (·.deadline?)
      rw [hnew, Option.bind_none]
    exact .idle (hbegun.trans (follows_report _ _))
  · next beat hbeat =>
    obtain ⟨⟨next, signals, events⟩, hbeats, rfl⟩ := Option.map_eq_some_iff.mp hstep
    have htold := Board.leads_reportAll { f.board with signals } events
    refine .beat ⟨⟨beat, events, hbeat, next, rfl, ?_⟩, htold.now, rfl, rfl⟩
    rw [hbeats]
    exact congrArg (fun s => some (next, s, events)) htold.signals.symm

/-- What is taken from the board leaves the slots of the beat alone, unless it is the beat. -/
theorem signals_wake? {b c : Board} {wakeAt? : Option Nat} {w : Wake} (h : wake? b wakeAt? = some (w, c)) :
    c.now = b.now ∧ c.signals.order? = b.signals.order? ∧
      if w = .beat then b.signals.raised = true ∧ c.signals.raised = false
      else c.signals.raised = b.signals.raised := by
  rw [wake?] at h
  split at h
  · obtain ⟨rfl, rfl⟩ := Prod.mk.inj (Option.some.inj h)
    exact ⟨rfl, rfl, rfl⟩
  split at h
  · obtain ⟨rfl, rfl⟩ := Prod.mk.inj (Option.some.inj h)
    exact ⟨rfl, rfl, rfl⟩
  split at h
  · next hraised =>
    obtain ⟨rfl, rfl⟩ := Prod.mk.inj (Option.some.inj h)
    exact ⟨rfl, rfl, hraised, rfl⟩
  split at h
  · obtain ⟨rfl, rfl⟩ := Prod.mk.inj (Option.some.inj h)
    exact ⟨rfl, rfl, rfl⟩
  split at h
  · obtain ⟨rfl, rfl⟩ := Prod.mk.inj (Option.some.inj h)
    exact ⟨rfl, rfl, rfl⟩
  · contradiction

/-- The beat is told whether the countdown runs, if that is news to it. -/
theorem armBeat_eq (f : Firmware) : f.armBeat = { f with
    armed := f.engine.countdown.isActive
    board := { f.board with signals := { f.board.signals with
      order? := if f.engine.countdown.isActive = f.armed then f.board.signals.order?
        else some f.engine.countdown.isActive } } } := by
  rw [armBeat]
  dsimp only
  split
  · next hknown => rw [hknown]
  · rfl

theorem woken_takeWake {wakeAt? : Option Nat} {w : Wake} {b : Board} (htask : f.engineTask = .waiting wakeAt?)
    (hwake : wake? f.board wakeAt? = some (w, b)) : f.Woken w ({ f with board := b }.takeWake w) := by
  obtain ⟨hnow, horder, hraised⟩ := signals_wake? hwake
  have htakes : f.takes? = some w := by
    rw [takes?, htask]
    exact congrArg (Option.map Prod.fst) hwake
  have hmillis : b.millis = f.board.millis := congrArg (· / 1000) hnow
  -- the engine takes it and is serviced; then the beat is told, and the engine goes to sleep
  have hserviced := (follows_settle { f with board := b, engine := f.engine.wake w b.millis }).trans (follows_service _)
  rw [takeWake]
  dsimp only
  generalize service (settle { f with board := b, engine := f.engine.wake w b.millis }) = g at hserviced ⊢
  obtain ⟨⟨hlater, hsignals⟩, hbeat, harmed, hcountdown⟩ := hserviced
  dsimp only at hlater hsignals harmed hcountdown
  have hasleep := follows_restartOrSleep g.armBeat
  generalize g.armBeat.restartOrSleep = h at hasleep ⊢
  rw [armBeat_eq] at hasleep
  obtain ⟨⟨hlater', hsignals'⟩, hbeat', harmed', hcountdown'⟩ := hasleep
  dsimp only at hlater' hsignals' harmed' hcountdown'
  constructor
  · exact htakes
  · exact (hnow.ge.trans hlater).trans hlater'
  · exact hbeat'.trans hbeat
  · rw [hcountdown', hcountdown, hmillis]
  · rw [harmed', hcountdown']
  · rw [hsignals', harmed', ← harmed, hsignals, horder]
  · rw [hsignals', hsignals]
    exact hraised

theorem turned_engine (hstep : f.stepEngine? = some g) : f.Turned g := by
  rw [stepEngine?] at hstep
  split at hstep
  · next entropy hfresh =>
    obtain rfl := Option.some.inj hstep
    exact .idle (follows_startEngine f entropy)
  · next wakeAt? hwaiting =>
    obtain ⟨⟨w, b⟩, hwake, rfl⟩ := Option.map_eq_some_iff.mp hstep
    exact .wake (woken_takeWake hwaiting hwake)
  · next deadline next hrestarting =>
    split at hstep
    · obtain rfl := Option.some.inj hstep
      exact .idle (follows_awaitRestart f deadline)
    · contradiction
  · contradiction

theorem woken_of_takes {w : Wake} (h : f.takes? = some w) : f.Woken w (f.turn (.task .engine)) := by
  rw [takes?] at h
  split at h
  · next wakeAt? hwaiting =>
    obtain ⟨⟨w, b⟩, hwake, rfl⟩ := Option.map_eq_some_iff.mp h
    have hstep : f.step? .engine = some ({ f with board := b }.takeWake w) := by
      rw [step?, stepEngine?, hwaiting]
      exact congrArg (Option.map _) hwake
    rw [turn, hstep]
    exact woken_takeWake hwaiting hwake
  · contradiction

/-- **A turn does nothing to the countdown and its beat, or the beat makes a step, or the engine takes something.** -/
theorem turned_turn (f : Firmware) (t : Turn) : f.Turned (f.turn t) := by
  cases t with
  | advance t => exact .idle (drifts_advance f t).follows
  | task task =>
    rw [turn]
    cases hstep : f.step? task with
    | none => exact .idle (.refl f)
    | some g =>
      rw [Option.getD_some]
      cases task with
      | receiver => exact .idle (drifts_receiver hstep).follows
      | engine => exact turned_engine hstep
      | beat => exact turned_beat hstep
      | beamCounter => exact .idle (drifts_beamCounter hstep).follows
      | beamSampler => exact .idle (drifts_beamSampler hstep).follows
      | announcer => exact .idle (follows_announcer hstep)
      | indicator => exact .idle (drifts_indicator hstep).follows

end Firmware

end DoorBridge
