import DoorBridge.Proofs.Firmware.Turns
import DoorBridge.Proofs.Line.Flush

/-!
# Proofs.Firmware.Receiving — the receiver lets go of a dead line

* `Receiver.Sound` is what a receiver keeps: its decoder is one that the line can come to, and its wait for the next
  edge began no earlier than the decoder's last instant (`Receiver.Sound.step`).
* `Board.Attends` and `Firmware.Attends` fix what the other tasks leave alone: the line, the receiver, and what it made
  known.  They may let time pass and edges come.
* `Firmware.Receives` holds from boot on (`receives_turns`): what the other tasks know of the receiver is whether its
  decoder holds part of a byte.
* After the byte timeout that part is gone, whatever level the line was left at (`dead_line_released`).
-/

namespace DoorBridge

/-! ## The receiver -/

/-- What holds of every receiver of a line. -/
structure Receiver.Sound (line : LineSettings) (r : Receiver) : Prop where
  decoder : r.decoder.Reachable line
  patience : r.patience = line.byteTimeout * 1000
  since : r.decoder.lastTime ≤ r.since

namespace Receiver.Sound

variable {line : LineSettings} {r : Receiver} {now : Nat}

theorem new (line : LineSettings) (now : Nat) : Receiver.Sound line (.new line now) := ⟨.new, rfl, Nat.zero_le now⟩

/-- A step on edges of which none lies ahead. -/
theorem step (h : r.Sound line) {edges rest : List Edge} (htimely : ∀ e ∈ edges, e.time ≤ now)
    {byte : Option UInt8} {r' : Receiver} (hstep : r.step? now edges = some ((byte, r'), rest)) :
    r'.Sound line ∧ ∀ e ∈ rest, e.time ≤ now := by
  unfold Receiver.step? at hstep
  split at hstep
  · next e later =>
    cases hstep
    exact ⟨⟨h.decoder.process e, h.patience, htimely e List.mem_cons_self⟩,
      fun x hx => htimely x (List.mem_cons_of_mem e hx)⟩
  · split at hstep
    · cases hstep
      exact ⟨⟨h.decoder.timeout now, h.patience, Nat.le_refl now⟩, htimely⟩
    · contradiction

end Receiver.Sound

/-! ## What the other tasks leave alone -/

/-- A board with a given line, whose receiver was last known to hold part of a byte or not.  No queued edge lies
ahead. -/
structure Board.Attends (line : LineSettings) (receiving : Bool) (b : Board) : Prop where
  line : b.line = line
  receiving : b.receiving = receiving
  timely : ∀ e ∈ b.edges, e.time ≤ b.now

namespace Board

variable {line : LineSettings} {receiving : Bool} {b c : Board}

theorem Attends.of_same (h : b.Attends line receiving) (hline : c.line = b.line)
    (hreceiving : c.receiving = b.receiving) (hedges : c.edges = b.edges) (hnow : b.now ≤ c.now) :
    c.Attends line receiving := by
  refine ⟨hline.trans h.line, hreceiving.trans h.receiving, fun e he => ?_⟩
  rw [hedges] at he
  exact (h.timely e he).trans hnow

theorem Attends.reportOne (h : b.Attends line receiving) (e : Event) : (b.reportOne e).Attends line receiving := by
  cases e <;> exact h.of_same rfl rfl rfl (Nat.le_refl _)

theorem Attends.report (h : b.Attends line receiving) (e : Event) : (b.report e).Attends line receiving := by
  cases e with
  | log level text => exact h.reportOne (.log level text)
  | note n =>
    have hpublish := List.foldlRecOn (b.publisher.publishEvents n) Board.reportOne h fun c hc e _ => hc.reportOne e
    exact hpublish.reportOne (.note n)

theorem Attends.reportAll (h : b.Attends line receiving) (events : List Event) :
    (b.reportAll events).Attends line receiving :=
  List.foldlRecOn events Board.report h fun _ hc e _ => hc.report e

/-! ### What happens to the board -/

theorem Attends.loseEdge (h : b.Attends line receiving) : b.loseEdge.Attends line receiving := by
  have hlost : Board.Attends line receiving { b with lostEdges := b.lostEdges + 1 } :=
    h.of_same rfl rfl rfl (Nat.le_refl _)
  rw [Board.loseEdge]
  split
  · exact hlost.report _
  · exact hlost

/-- A new edge is queued with the present time. -/
theorem Attends.captureEdge (h : b.Attends line receiving) (high : Bool) :
    (b.captureEdge high).Attends line receiving := by
  have hlevel : Board.Attends line receiving { b with busLevel := high, lineLevel := high } :=
    h.of_same rfl rfl rfl (Nat.le_refl _)
  rw [Board.captureEdge]
  split
  · exact hlevel
  split
  · next edges hoffer =>
    rw [offer?] at hoffer
    split at hoffer
    · obtain rfl := Option.some.inj hoffer
      refine ⟨h.line, h.receiving, fun e he => ?_⟩
      rcases List.mem_append.mp he with hold | hnew
      · exact h.timely e hold
      · rw [List.mem_singleton.mp hnew]
    · contradiction
  · exact hlevel.loseEdge

theorem now_captureEdge (b : Board) (high : Bool) : (b.captureEdge high).now = b.now := by
  unfold Board.captureEdge Board.loseEdge
  dsimp only
  repeat' split
  all_goals rfl

theorem Attends.undergo (h : b.Attends line receiving) (what : Happening) :
    (b.undergo what).Attends line receiving := by
  cases what with
  | level input high =>
    cases input with
    | bus =>
      rw [Board.undergo, drive]
      split
      · exact h
      · exact h.captureEdge high
    | beam =>
      rw [Board.undergo, drive]
      split <;> exact h.of_same rfl rfl rfl (Nat.le_refl _)
  | request r =>
    rw [Board.undergo]
    split <;> exact h.of_same rfl rfl rfl (Nat.le_refl _)
  | refuses refuses => exact h.of_same rfl rfl rfl (Nat.le_refl _)

theorem now_undergo (b : Board) (what : Happening) : (b.undergo what).now = b.now := by
  cases what with
  | level input high =>
    cases input with
    | bus =>
      rw [Board.undergo, drive]
      split
      · rfl
      · exact now_captureEdge b high
    | beam =>
      rw [Board.undergo, drive]
      split <;> rfl
  | request r =>
    rw [Board.undergo]
    split <;> rfl
  | refuses refuses => rfl

/-- Nothing that happens up to an instant happens after it. -/
theorem Attends.undergoUntil {t : Nat} : ∀ (plan : List Stimulus) {b : Board},
    b.Attends line receiving → b.now ≤ t →
    (undergoUntil t plan b).Attends line receiving ∧ (undergoUntil t plan b).now ≤ t
  | [], b, h, hnow => ⟨h.of_same rfl rfl rfl (Nat.le_refl _), hnow⟩
  | s :: plan, b, h, hnow => by
    rw [Board.undergoUntil]
    split
    · next hdue =>
      have hlater : Board.Attends line receiving { b with now := max b.now s.time } :=
        h.of_same rfl rfl rfl (Nat.le_max_left _ _)
      refine Attends.undergoUntil plan (hlater.undergo s.what) ?_
      rw [now_undergo]
      exact Nat.max_le.mpr ⟨hnow, hdue⟩
    · exact ⟨h.of_same rfl rfl rfl (Nat.le_refl _), hnow⟩

theorem Attends.waitUntil (h : b.Attends line receiving) (t : Nat) : (b.waitUntil t).Attends line receiving := by
  rw [Board.waitUntil]
  split
  · exact h
  · next hahead =>
    obtain ⟨huntil, hnow⟩ := Attends.undergoUntil b.plan h (Nat.le_of_not_le hahead)
    exact huntil.of_same rfl rfl rfl hnow

/-! ### The bus -/

theorem Attends.setBreak (h : b.Attends line receiving) (s : LineSettings) (held : Bool) :
    (Transmitter.setBreak s held b).Attends line receiving := h.of_same rfl rfl rfl (Nat.le_refl _)

theorem Attends.holdLevels (bitTime : Nat) : ∀ (levels : List Bool) (start : Nat) {b : Board},
    b.Attends line receiving →
    (Transmitter.holdLevels bitTime start levels b).Attends line receiving
  | [], _, _, h => h
  | level :: rest, start, b, h => by
    have hlevel : (LinePin.setLevel level b : Board).Attends line receiving := h.of_same rfl rfl rfl (Nat.le_refl _)
    exact Attends.holdLevels bitTime rest _ (hlevel.waitUntil _)

theorem Attends.writeFrom (s : LineSettings) (deadline : Nat) : ∀ (bytes : List UInt8) (start : Nat) {b : Board},
    b.Attends line receiving → (Transmitter.writeFrom s deadline start bytes b).2.Attends line receiving
  | [], _, _, h => h
  | byte :: rest, start, b, h => by
    rw [Transmitter.writeFrom]
    split
    · exact h.setBreak s false
    · exact Attends.writeFrom s deadline rest _ (Attends.holdLevels s.bitTime _ start h)

/-- The engine's use of the bus leaves the receiver alone. -/
theorem keeps_attends : Bus.Keeps (Board.Attends line receiving) where
  lineBusy h := h
  setAsserted held c h := by
    have hheld : Board.Attends line receiving { c with transmitting := held } := h.of_same rfl rfl rfl (Nat.le_refl _)
    exact hheld.setBreak c.line held
  delay time c h := h.waitUntil (c.now + time)
  write row c h := by
    have hstart : Board.Attends line receiving { c with transmitting := true } := h.of_same rfl rfl rfl (Nat.le_refl _)
    exact (Attends.writeFrom c.line _ row _ hstart).of_same rfl rfl rfl (Nat.le_refl _)

end Board

namespace Firmware

/-- A firmware with a given receiver on a given line. -/
structure Attends (r? : Option Receiver) (line : LineSettings) (receiving : Bool) (f : Firmware) : Prop where
  receiver : f.receiver? = r?
  board : f.board.Attends line receiving

variable {r? : Option Receiver} {line : LineSettings} {receiving : Bool} {f g : Firmware}

theorem Attends.report (h : f.Attends r? line receiving) (e : Event) : (f.report e).Attends r? line receiving :=
  ⟨h.receiver, h.board.report e⟩

/-- The engine does a part of its work. -/
theorem Attends.work (h : f.Attends r? line receiving) (e : Engine) {b : Board} (hboard : b.Attends line receiving) :
    (f.work e b).Attends r? line receiving := ⟨h.receiver, hboard.reportAll _⟩

theorem Attends.service (h : f.Attends r? line receiving) : f.service.Attends r? line receiving := by
  refine keeps_service (h.work _ h.board) (fun g hg => hg.work _ ?_) fun g hg => hg.work _ ?_
  · exact Board.keeps_attends.transmitNext g.engine f.board.millis hg.board
  · exact hg.board.of_same rfl rfl rfl (Nat.le_refl _)

theorem Attends.startEngine (h : f.Attends r? line receiving) (entropy : UInt32) :
    (f.startEngine entropy).Attends r? line receiving := by
  refine keeps_startEngine h (fun g level text hg => hg.report (.log level text)) (fun g hg => hg.work _ ?_)
    fun g hg => ?_
  · exact hg.board.of_same rfl rfl rfl (Nat.le_refl _)
  · exact ⟨hg.service.receiver, hg.service.board⟩

/-- What the engine takes from the board is not the receiver's. -/
theorem attends_of_wake? {b c : Board} {wakeAt? : Option Nat} {w : Wake} (hwake : wake? b wakeAt? = some (w, c))
    (h : b.Attends line receiving) : c.Attends line receiving := by
  rw [wake?] at hwake
  repeat' split at hwake
  all_goals cases hwake <;> exact h.of_same rfl rfl rfl (Nat.le_refl _)

theorem Attends.restartOrSleep (h : f.Attends r? line receiving) : f.restartOrSleep.Attends r? line receiving := by
  rw [Firmware.restartOrSleep]
  split
  · next reason _ =>
    have htaken : Attends r? line receiving
        (f.onBoard fun b => { b with publisher := { b.publisher with restart? := none } }) :=
      ⟨h.receiver, h.board.of_same rfl rfl rfl (Nat.le_refl _)⟩
    have htold := htaken.report (restartEvent reason)
    exact ⟨htold.receiver, htold.board⟩
  · exact ⟨h.receiver, h.board⟩

theorem Attends.takeWake (h : f.Attends r? line receiving) (w : Wake) : (f.takeWake w).Attends r? line receiving := by
  have hserviced := (h.work (f.engine.wake w f.board.millis) h.board).service
  show (f.work (f.engine.wake w f.board.millis) f.board).service.armBeat.restartOrSleep.Attends r? line receiving
  generalize (f.work (f.engine.wake w f.board.millis) f.board).service = serviced at hserviced ⊢
  have harmed : serviced.armBeat.Attends r? line receiving := by
    rw [armBeat_eq]
    exact ⟨hserviced.receiver, hserviced.board.of_same rfl rfl rfl (Nat.le_refl _)⟩
  exact harmed.restartOrSleep

theorem Attends.engine (h : f.Attends r? line receiving) (hstep : f.stepEngine? = some g) :
    g.Attends r? line receiving := by
  rw [stepEngine?] at hstep
  split at hstep
  · obtain rfl := Option.some.inj hstep
    exact h.startEngine _
  · obtain ⟨⟨w, b⟩, hwake, rfl⟩ := Option.map_eq_some_iff.mp hstep
    have htaken : Attends r? line receiving { f with board := b } := ⟨h.receiver, attends_of_wake? hwake h.board⟩
    exact htaken.takeWake w
  · split at hstep
    · obtain rfl := Option.some.inj hstep
      exact ⟨h.receiver, h.board⟩
    · contradiction
  · contradiction

theorem Attends.beat (h : f.Attends r? line receiving) (hstep : f.stepBeat? = some g) :
    g.Attends r? line receiving := by
  rw [stepBeat?] at hstep
  split at hstep
  · obtain rfl := Option.some.inj hstep
    have hbegun : Attends r? line receiving { f with beat? := some .stopped } := ⟨h.receiver, h.board⟩
    exact hbegun.report _
  · obtain ⟨⟨next, signals, events⟩, -, rfl⟩ := Option.map_eq_some_iff.mp hstep
    have htaken : Board.Attends line receiving { f.board with signals } := h.board.of_same rfl rfl rfl (Nat.le_refl _)
    exact ⟨h.receiver, htaken.reportAll events⟩

theorem Attends.beamCounter (h : f.Attends r? line receiving) (hstep : f.stepBeamCounter? = some g) :
    g.Attends r? line receiving := by
  rw [stepBeamCounter?] at hstep
  split at hstep
  · obtain rfl := Option.some.inj hstep
    exact ⟨h.receiver, (h.board.report _).of_same rfl rfl rfl (Nat.le_refl _)⟩
  · obtain ⟨c, -, rfl⟩ := Option.map_eq_some_iff.mp hstep
    exact ⟨h.receiver, h.board.of_same rfl rfl rfl (Nat.le_refl _)⟩

theorem Attends.beamSampler (h : f.Attends r? line receiving) (hstep : f.stepBeamSampler? = some g) :
    g.Attends r? line receiving := by
  rw [stepBeamSampler?] at hstep
  split at hstep
  · obtain rfl := Option.some.inj hstep
    have hbegun : Attends r? line receiving { f with beamSampler? := some (.new f.board.now) } :=
      ⟨h.receiver, h.board⟩
    exact hbegun.report _
  · obtain ⟨⟨transition, s, c⟩, -, rfl⟩ := Option.map_eq_some_iff.mp hstep
    have hsampled : Board.Attends line receiving { f.board with beam? := some c } :=
      h.board.of_same rfl rfl rfl (Nat.le_refl _)
    cases transition with
    | none => exact ⟨h.receiver, hsampled⟩
    | some obstructed => exact ⟨h.receiver, (hsampled.report _).of_same rfl rfl rfl (Nat.le_refl _)⟩

theorem Attends.announcer (h : f.Attends r? line receiving) (hstep : f.stepAnnouncer? = some g) :
    g.Attends r? line receiving := by
  rw [stepAnnouncer?] at hstep
  split at hstep
  · obtain rfl := Option.some.inj hstep
    have hbegun : Attends r? line receiving { f with announcing := true } := ⟨h.receiver, h.board⟩
    exact hbegun.report _
  · obtain ⟨⟨n, publisher⟩, -, rfl⟩ := Option.map_eq_some_iff.mp hstep
    have htaken : Board.Attends line receiving { f.board with publisher } := h.board.of_same rfl rfl rfl (Nat.le_refl _)
    exact ⟨h.receiver, (htaken.report n.announcement).of_same rfl rfl rfl (Nat.le_refl _)⟩

theorem Attends.indicator (h : f.Attends r? line receiving) (hstep : f.stepIndicator? = some g) :
    g.Attends r? line receiving := by
  rw [stepIndicator?] at hstep
  split at hstep
  · obtain rfl := Option.some.inj hstep
    exact ⟨h.receiver, h.board.of_same rfl rfl rfl (Nat.le_refl _)⟩
  · obtain ⟨⟨i, traffic⟩, -, rfl⟩ := Option.map_eq_some_iff.mp hstep
    exact ⟨h.receiver, h.board.of_same rfl rfl rfl (Nat.le_refl _)⟩

theorem Attends.advance (h : f.Attends r? line receiving) (t : Nat) :
    (f.turn (.advance t)).Attends r? line receiving := by
  have hlater : Board.Attends line receiving { f.board with now := max f.board.now t } :=
    h.board.of_same rfl rfl rfl (Nat.le_max_left _ _)
  refine ⟨h.receiver, ?_⟩
  show (undergoDue { f.board with now := max f.board.now t }).Attends line receiving
  unfold undergoDue
  split
  · next s plan _ =>
    split
    · have hdropped : Board.Attends line receiving { f.board with now := max f.board.now t, plan } :=
        hlater.of_same rfl rfl rfl (Nat.le_refl _)
      exact hdropped.undergo s.what
    · exact hlater
  · exact hlater

/-- **No turn but the receiver's own touches the receiver.** -/
theorem Attends.turn (h : f.Attends r? line receiving) {t : Turn} (ht : t ≠ .task .receiver) :
    (f.turn t).Attends r? line receiving := by
  cases t with
  | advance t => exact h.advance t
  | task task =>
    rw [Firmware.turn]
    cases hstep : f.step? task with
    | none => exact h
    | some g =>
      rw [Option.getD_some]
      cases task with
      | receiver => exact absurd rfl ht
      | engine => exact h.engine hstep
      | beat => exact h.beat hstep
      | beamCounter => exact h.beamCounter hstep
      | beamSampler => exact h.beamSampler hstep
      | announcer => exact h.announcer hstep
      | indicator => exact h.indicator hstep

/-! ## From boot on -/

/-- What is known of the receiver is whether its decoder holds part of a byte. -/
structure Receives (f : Firmware) : Prop where
  line : ∃ security : Security, f.board.line = security.line
  timely : ∀ e ∈ f.board.edges, e.time ≤ f.board.now
  receiver : ∀ r, f.receiver? = some r → r.Sound f.board.line
  receiving : f.board.receiving = f.receiver?.any (·.decoder.isBusy)

theorem receives_boot (store : ChipStore) (busLevel beamLevel : Bool) (plan : List Stimulus) :
    (boot store busLevel beamLevel plan).Receives := by
  rw [boot]
  generalize Settings.boot store = loaded
  generalize chipId store = id
  obtain ⟨settings, loading⟩ := loaded
  obtain ⟨id, identifying⟩ := id
  dsimp only
  have hboard : Board.Attends settings.security.line false
      { store, busLevel, beamLevel, plan, line := settings.security.line } := ⟨rfl, rfl, nofun⟩
  have hbooted (events : List Event) (e : Event) :=
    ((hboard.reportAll events).setBreak settings.security.line false).report e
  exact ⟨⟨_, (hbooted _ _).line⟩, (hbooted _ _).timely, nofun, (hbooted _ _).receiving⟩

theorem Attends.receives (h : f.Attends r? line receiving) (hline : ∃ security : Security, line = security.line)
    (hsound : ∀ r, r? = some r → r.Sound line) (hknown : receiving = r?.any (·.decoder.isBusy)) : f.Receives := by
  obtain ⟨hreceiver, hboard, hreceiving, htimely⟩ := h
  constructor
  · rw [hboard]
    exact hline
  · exact htimely
  · rw [hreceiver, hboard]
    exact hsound
  · rw [hreceiver, hreceiving]
    exact hknown

theorem Receives.attends (h : f.Receives) : f.Attends f.receiver? f.board.line f.board.receiving :=
  ⟨rfl, rfl, rfl, h.timely⟩

theorem attends_pushByte {b : Board} (h : b.Attends line receiving) (byte : UInt8) :
    (pushByte b byte).Attends line receiving := by
  have htold := h.report (.trace s!"RX {hexText byte.toNat}")
  rw [pushByte]
  generalize b.report (.trace s!"RX {hexText byte.toNat}") = told at htold ⊢
  split
  · exact htold.of_same rfl rfl rfl (Nat.le_refl _)
  · exact (htold.report (.warn "RX queue full, dropping byte")).of_same rfl rfl rfl (Nat.le_refl _)

/-- The receiver takes an edge or ends its wait, and makes known whether it holds part of a byte. -/
theorem attends_read (h : f.Receives) {r r' : Receiver} {byte : Option UInt8} {edges : List Edge}
    (hr : f.receiver? = some r) (hread : r.step? f.board.now f.board.edges = some ((byte, r'), edges)) :
    (f.turn (.task .receiver)).Attends (some r') f.board.line r'.decoder.isBusy ∧ r'.Sound f.board.line := by
  obtain ⟨hsound, htimely⟩ := (h.receiver r hr).step h.timely hread
  have hboard : Board.Attends f.board.line r'.decoder.isBusy { f.board with edges, receiving := r'.decoder.isBusy } :=
    ⟨rfl, rfl, htimely⟩
  rw [turn, step?, stepReceiver?, hr]
  dsimp only
  rw [hread]
  refine ⟨⟨rfl, ?_⟩, hsound⟩
  cases byte with
  | none => exact hboard
  | some byte => exact attends_pushByte hboard byte

theorem receives_receiver (h : f.Receives) : (f.turn (.task .receiver)).Receives := by
  cases hr : f.receiver? with
  | none =>
    rw [turn, step?, stepReceiver?, hr]
    dsimp only [Option.getD_some]
    have hbegun : Attends (some (.new f.board.line f.board.now)) f.board.line f.board.receiving
        { f with receiver? := some (.new f.board.line f.board.now) } := ⟨rfl, rfl, rfl, h.timely⟩
    refine (hbegun.report _).receives h.line ?_ ?_
    · intro r hnew
      obtain rfl := Option.some.inj hnew
      exact .new _ _
    · rw [h.receiving, hr]
      rfl
  | some r =>
    cases hread : r.step? f.board.now f.board.edges with
    | none =>
      rw [turn, step?, stepReceiver?, hr]
      dsimp only
      rw [hread]
      exact h
    | some read =>
      obtain ⟨⟨byte, r'⟩, edges⟩ := read
      obtain ⟨hattends, hsound⟩ := attends_read h hr hread
      refine hattends.receives h.line ?_ rfl
      intro next hnext
      obtain rfl := Option.some.inj hnext
      exact hsound

theorem receives_turn (h : f.Receives) (t : Turn) : (f.turn t).Receives := by
  by_cases ht : t = .task .receiver
  · rw [ht]
    exact receives_receiver h
  · exact (h.attends.turn ht).receives h.line h.receiver h.receiving

theorem receives_turns (row : List Turn) (h : f.Receives) : (f.turns row).Receives := by
  induction row generalizing f with
  | nil => exact h
  | cons t row ih => exact ih (receives_turn h t)

/-- **The receiver lets go of a line that has fallen silent.** -/
theorem released_after_silence (h : f.Receives) {r : Receiver} (hr : f.receiver? = some r) (hedges : f.board.edges = [])
    (hsilence : r.since + f.board.line.byteTimeout * 1000 ≤ f.board.now) :
    (f.turn (.task .receiver)).board.receiving = false := by
  have hsound := h.receiver r hr
  obtain ⟨security, hline⟩ := h.line
  by_cases hbusy : r.decoder.isBusy = true
  · have hoverdue : r.isOverdue f.board.now = true := by
      rw [Receiver.isOverdue, Receiver.deadline?, if_pos hbusy, hsound.patience]
      exact decide_eq_true hsilence
    have hread : r.step? f.board.now f.board.edges =
        some (r.proceed f.board.now (r.decoder.timeout f.board.now), []) := by
      rw [hedges, Receiver.step?, if_pos hoverdue]
    have hdecoder : r.decoder.Reachable security.line := hline ▸ hsound.decoder
    have hlast : r.decoder.lastTime + security.line.byteTimeout * 1000 ≤ f.board.now := by
      have hsince := hsound.since
      rw [← hline]
      omega
    rw [(attends_read h hr hread).1.board.receiving]
    show (r.decoder.timeout f.board.now).2.isBusy = false
    rw [EdgeDecoder.timeout_eq hdecoder hlast]
    rfl
  · have hwaits : r.step? f.board.now f.board.edges = none := by
      rw [hedges, Receiver.step?, Receiver.isOverdue, Receiver.deadline?, if_neg hbusy]
      rfl
    have hreceiving := h.receiving
    rw [hr, Option.any_some, Bool.eq_false_iff.mpr hbusy] at hreceiving
    rw [turn, step?, stepReceiver?, hr]
    dsimp only
    rw [hwaits]
    exact hreceiving

end Firmware

/-- **A dead line is let go of.**  After the byte timeout of either protocol every decoder that the line can come to is idle,
whatever level the line was left at and however many bits were taken.  It gives a byte exactly if it was past the start bit and
the level is the idle one: the bits taken, followed by ones.

So on the board nothing is known to be received any more, once no edge has come for that long and the receiver has had its
turn, however the tasks were scheduled before. -/
theorem dead_line_released :
    (∀ (security : Security) (d : EdgeDecoder) (now : Nat), d.Reachable security.line →
      d.lastTime + security.line.byteTimeout * 1000 ≤ now →
        (d.timeout now).2.isBusy = false ∧
          ∀ byte, (d.timeout now).1 = some byte ↔ d.lastLevel = security.line.idleLevel ∧
            ∃ taken, (d.phase = .data taken ∨ d.phase = .stop taken) ∧
              byte = byteOfData (taken ++ List.replicate (8 - taken.length) true)) ∧
      ∀ (store : ChipStore) (busLevel beamLevel : Bool) (plan : List Stimulus) (row : List Turn) (r : Receiver),
        let f := (Firmware.boot store busLevel beamLevel plan).turns row
        f.receiver? = some r → f.board.edges = [] → r.since + f.board.line.byteTimeout * 1000 ≤ f.board.now →
          (f.turn (.task .receiver)).board.receiving = false := by
  refine ⟨fun security d now hd hsilence => ?_, fun store busLevel beamLevel plan row r hr hedges hsilence => ?_⟩
  · rw [EdgeDecoder.timeout_eq hd hsilence]
    refine ⟨rfl, fun byte => ?_⟩
    by_cases hidle : d.lastLevel = security.line.idleLevel
    · rw [if_pos hidle, EdgeDecoder.Phase.completed_eq_some_iff hd.wellFormed]
      exact ⟨fun hbyte => ⟨hidle, hbyte⟩, fun hbyte => hbyte.2⟩
    · rw [if_neg hidle]
      exact ⟨nofun, fun hbyte => absurd hbyte.1 hidle⟩
  · have hreceives := Firmware.receives_turns row (Firmware.receives_boot store busLevel beamLevel plan)
    exact Firmware.released_after_silence hreceives hr hedges hsilence

/-- A chip with the settings of a new image. -/
def plainChip : ChipStore :=
  { item := fun key => if key = .config then Settings.encode {} else []
    uniqueId? := some 57 }

/-- The line goes to zero and stays there; the receiver takes the edge, and three milliseconds pass. -/
def stuckLine : Firmware :=
  (Firmware.boot plainChip false false [⟨1000, .level .bus true⟩]).turns
    [.task .receiver, .advance 1000, .task .receiver, .advance 4000]

/-- A start bit that never ends is dropped, and a byte of ones is read without a closing edge. -/
theorem dead_line_released_stuck :
    stuckLine.board.receiving = true ∧ (stuckLine.turn (.task .receiver)).board.receiving = false ∧
      (EdgeDecoder.openOnes.timeout 3105).2.isBusy = false ∧ (EdgeDecoder.openOnes.timeout 3105).1 = some 0xff := by
  obtain ⟨hdecoder, hboard⟩ := dead_line_released
  have hreleased := hboard plainChip false false [⟨1000, .level .bus true⟩]
    [.task .receiver, .advance 1000, .task .receiver, .advance 4000] ⟨⟨105, true, .start, 1000, true⟩, 2000, 1000⟩
    (by decide +kernel) (by decide +kernel) (by decide +kernel)
  obtain ⟨hidle, hbyte⟩ := hdecoder .plus2 EdgeDecoder.openOnes 3105 EdgeDecoder.reachable_openOnes (by decide +kernel)
  refine ⟨by decide +kernel, hreleased, hidle, (hbyte 0xff).mpr ⟨by decide +kernel, [], .inl ?_, by decide +kernel⟩⟩
  decide +kernel

end DoorBridge
