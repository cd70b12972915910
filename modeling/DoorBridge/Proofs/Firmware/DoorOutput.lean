import DoorBridge.Proofs.Engine.Reports
import DoorBridge.Proofs.Firmware.Turns
import DoorBridge.Proofs.Session.Consistency

/-!
# Proofs.Firmware.DoorOutput — what the door status output shows

The engine puts its notifications on a bounded channel, and the announcer drives the output as it takes them off.

* `Firmware.posted` are the notifications that a row of turns has put on the channel; the ones that a full channel drops are
  not among them.
* `Board.Posts b c s s'` says that nothing was taken off the channel between two boards, and that the door state changed from
  `s` to what was posted last, unless the log tells that a full channel dropped the last change.
* `Firmware.Told` holds between two steps of the engine; `Firmware.Posts` is what such a step does to the board.
* `door_output_shows_last_posted`: once the channel is empty, the output shows the door state that was posted last, and this
  is the current one unless the log tells that it was dropped.
-/

namespace DoorBridge

/-! ## Door states among notifications -/

namespace Notification

def door? : Notification → Option DoorState
  | currentDoor s => some s
  | _ => none

/-- The door state that some notifications report last. -/
def lastDoor? (notes : List Notification) : Option DoorState := (notes.filterMap door?).getLast?

theorem lastDoor?_singleton (n : Notification) : lastDoor? [n] = n.door? := by cases n <;> rfl

theorem lastDoor?_append (notes more : List Notification) :
    lastDoor? (notes ++ more) = (lastDoor? more).or (lastDoor? notes) := by
  unfold lastDoor?
  rw [List.filterMap_append, List.getLast?_append]

theorem lastDoor?_cons (n : Notification) (notes : List Notification) :
    lastDoor? (n :: notes) = (lastDoor? notes).or n.door? := by
  rw [← lastDoor?_singleton n]
  exact lastDoor?_append [n] notes

/-- The door state that a view shows is the last one it was told. -/
theorem current_replay (v : View) (notes : List Notification) :
    (v.replay notes).current = (lastDoor? notes).getD v.current := by
  induction notes generalizing v with
  | nil => rfl
  | cons n notes ih =>
    have hstep : (v.take n).current = n.door?.getD v.current := by cases n <;> rfl
    have hreplay : v.replay (n :: notes) = (v.take n).replay notes := rfl
    rw [hreplay, ih, hstep, lastDoor?_cons]
    cases lastDoor? notes <;> rfl

end Notification

open Notification

/-! ## Posting on a board -/

/-- What the log says of a door state that a full channel drops. -/
def dropText (s : DoorState) : String := s!"Notification channel full, dropping {(Notification.currentDoor s).text}"

/-- Some log records tell that a door state was dropped. -/
def TellsDrop (records : List LogRecord) (s : DoorState) : Prop := ∃ r ∈ records, r.text = dropText s

/-- The second door state is the one that some notifications report last, counted from the first, unless some log records
tell that it was dropped. -/
def DoorAfter (posted : List Notification) (records : List LogRecord) (s s' : DoorState) : Prop :=
  (lastDoor? posted).getD s = s' ∨ TellsDrop records s'

theorem DoorAfter.trans {posted more : List Notification} {records later : List LogRecord} {s s' s'' : DoorState}
    (h : DoorAfter posted records s s') (h' : DoorAfter more later s' s'') :
    DoorAfter (posted ++ more) (later ++ records) s s'' := by
  rcases h' with hsame | ⟨r, hr, htext⟩
  · rw [DoorAfter, lastDoor?_append]
    cases hmore : lastDoor? more with
    | some x =>
      rw [hmore] at hsame
      exact .inl hsame
    | none =>
      -- the door state is the one before, and so is what is known of it
      rw [hmore] at hsame
      obtain rfl : s' = s'' := hsame
      rcases h with hfirst | ⟨r, hr, htext⟩
      · exact .inl hfirst
      · exact .inr ⟨r, List.mem_append_right _ hr, htext⟩
  · exact .inr ⟨r, List.mem_append_left _ hr, htext⟩

namespace Board

/-- Between two boards nothing was taken off the channel, and the log has grown.  The door state has changed from the
first to the last one posted, unless the log tells that it was dropped. -/
def Posts (b c : Board) (s s' : DoorState) : Prop :=
  ∃ posted records, c.publisher.channel = b.publisher.channel ++ posted ∧ c.doorOut = b.doorOut ∧
    c.log = records ++ b.log ∧ DoorAfter posted records s s'

variable {b c d : Board} {s s' s'' : DoorState}

theorem posts_of_same (hchannel : c.publisher.channel = b.publisher.channel) (hout : c.doorOut = b.doorOut)
    (hlog : ∃ records, c.log = records ++ b.log) (s : DoorState) : b.Posts c s s := by
  obtain ⟨records, hlog⟩ := hlog
  refine ⟨[], records, ?_, hout, hlog, .inl rfl⟩
  rw [hchannel, List.append_nil]

theorem Drifts.posts (h : b.Drifts c) (s : DoorState) : b.Posts c s s :=
  posts_of_same (congrArg Publisher.channel h.publisher) h.doorOut h.log s

theorem Posts.trans (h : b.Posts c s s') (h' : c.Posts d s' s'') : b.Posts d s s'' := by
  obtain ⟨posted, records, hchannel, hout, hlog, hstate⟩ := h
  obtain ⟨more, later, hchannel', hout', hlog', hstate'⟩ := h'
  refine ⟨posted ++ more, later ++ records, ?_, hout'.trans hout, ?_, hstate.trans hstate'⟩
  · rw [hchannel', hchannel, List.append_assoc]
  · rw [hlog', hlog, List.append_assoc]

/-- A notification is posted, or it is dropped and the log tells. -/
theorem posts_report_note (b : Board) (n : Notification) (s : DoorState) :
    b.Posts (b.report (.note n)) s (n.door?.getD s) := by
  by_cases hroom : b.publisher.channel.length < channelCapacity
  · refine ⟨[n], [], ?_, ?_, ?_, ?_⟩
    · simp [report, reportOne, Publisher.publish, Publisher.publishEvents, hroom]
    · simp [report, reportOne, Publisher.publishEvents, hroom]
    · simp [report, reportOne, Publisher.publishEvents, hroom]
    · rw [DoorAfter, lastDoor?_singleton]
      exact .inl rfl
  · refine ⟨[], [⟨b.now, .warn, s!"Notification channel full, dropping {n.text}"⟩], ?_, ?_, ?_, ?_⟩
    · simp [report, reportOne, Publisher.publish, Publisher.publishEvents, hroom, Event.warn]
    · simp [report, reportOne, Publisher.publishEvents, hroom, Event.warn]
    · simp [report, reportOne, Publisher.publishEvents, hroom, Event.warn]
    · cases n with
      | currentDoor state => exact .inr ⟨_, List.mem_singleton.mpr rfl, rfl⟩
      | _ => exact .inl rfl

theorem posts_report (b : Board) (e : Event) (s : DoorState) :
    b.Posts (b.report e) s ((lastDoor? (Event.notifications [e])).getD s) := by
  cases e with
  | log level text => exact (b.drifts_log level text).posts s
  | note n =>
    have hone : Event.notifications [.note n] = [n] := rfl
    rw [hone, lastDoor?_singleton]
    exact b.posts_report_note n s

theorem posts_reportAll (events : List Event) (b : Board) (s : DoorState) :
    b.Posts (b.reportAll events) s ((lastDoor? (Event.notifications events)).getD s) := by
  induction events generalizing b s with
  | nil => exact (Drifts.refl b).posts s
  | cons e events ih =>
    have hstep := (b.posts_report e s).trans (ih (b.report e) _)
    have hnotes : Event.notifications (e :: events) = Event.notifications [e] ++ Event.notifications events :=
      notifications_append [e] events
    rw [hnotes, lastDoor?_append]
    cases hlast : lastDoor? (Event.notifications events) <;> rw [hlast] at hstep <;> exact hstep

end Board

/-! ## The work of the engine -/

namespace Engine

/-- A part of the engine's work: what it changes is reported, and its door stays well formed. -/
structure Works (e e' : Engine) : Prop where
  reports : e.Reports e'
  mirror : e.door.mirror.WellFormed → e'.door.mirror.WellFormed

variable {e e' e'' : Engine}

theorem Works.refl (e : Engine) : e.Works e := ⟨.refl e, id⟩

theorem Works.trans (h : e.Works e') (h' : e'.Works e'') : e.Works e'' :=
  ⟨h.reports.trans h'.reports, fun hmirror => h'.mirror (h.mirror hmirror)⟩

theorem works_after {σ : Type} [Storage σ] (e : Engine) (o : Operation σ) : e.Works (e.after o) := by
  refine ⟨e.reports_after o, fun hmirror => ?_⟩
  have hears : (e.after o).door.mirror = (e.earsAfter o).mirror := congrArg Ears.mirror (ears_after e o)
  rw [hears]
  exact wellFormed_earsAfter hmirror o

theorem works_transmitNext {β : Type} [Bus β] (e : Engine) (bus : β) (now : Nat) :
    e.Works (e.transmitNext bus now).2.1 := by
  refine ⟨e.reports_transmitNext now bus, fun hmirror => ?_⟩
  obtain ⟨new, -, hattempt⟩ := e.attempt_transmitNext (WireLog.mk bus []) now
  dsimp only at hattempt
  generalize e.transmitNext bus now = tried at hattempt ⊢
  obtain ⟨answer, engine, bus⟩ := tried
  cases hattempt <;> exact hmirror

theorem works_orWarn {r : Result} (h : e.Works r.2) (what : String) : e.Works (orWarn r what) := by
  obtain ⟨answer, x⟩ := r
  cases answer with
  | ok done => exact h
  | error cause => exact h.trans ⟨x.reports_emit rfl, id⟩

/-- Whatever wakes the engine up. -/
theorem works_wake (e : Engine) (w : Wake) (now : Nat) : e.Works (e.wake w now) := by
  cases w with
  | bytes row =>
    exact List.foldlRecOn row _ (.refl e) fun x hx b _ =>
      hx.trans (x.works_after (.byte b.byte b.time : Operation ChipStore))
  | request r => exact works_orWarn (e.works_after (.request r : Operation ChipStore)) _
  | beat => exact works_orWarn (e.works_after (.beat : Operation ChipStore)) _
  | obstruction obstructed => exact e.works_after (.obstruction obstructed now : Operation ChipStore)
  | timer => exact .refl e

end Engine

namespace Firmware

/-- Between two steps of the engine all its events have been reported. -/
structure Told (f : Firmware) : Prop where
  events : f.engine.events = []
  mirror : f.engine.door.mirror.WellFormed

/-- What the second firmware has posted more than the first tells its door state from the one of the first. -/
def Posts (f g : Firmware) : Prop :=
  f.Told → g.Told ∧ f.board.Posts g.board f.engine.door.current g.engine.door.current

variable {f g h : Firmware}

theorem Posts.trans (hfg : f.Posts g) (hgh : g.Posts h) : f.Posts h := by
  intro htold
  obtain ⟨htold, hposts⟩ := hfg htold
  obtain ⟨htold, hposts'⟩ := hgh htold
  exact ⟨htold, hposts.trans hposts'⟩

/-- The board may change in any way that posts nothing. -/
theorem posts_of_board (hengine : g.engine = f.engine) (hboard : ∀ s, f.board.Posts g.board s s) : f.Posts g := by
  intro htold
  rw [hengine]
  exact ⟨⟨hengine ▸ htold.events, hengine ▸ htold.mirror⟩, hboard _⟩

theorem Drifts.posts (h : f.Drifts g) : f.Posts g := posts_of_board h.engine h.board.posts

theorem posts_log (f : Firmware) {e : Event} (hlog : e.notification? = none) : f.Posts (f.report e) := by
  cases e with
  | log level text => exact (drifts_log f level text).posts
  | note n => contradiction

/-- The engine does a part of its work, and it is reported. -/
theorem posts_work {e : Engine} {b : Board} (hworks : f.engine.Works e) (hboard : f.board.Drifts b) :
    f.Posts (f.work e b) := by
  intro htold
  refine ⟨⟨rfl, hworks.mirror htold.mirror⟩, ?_⟩
  obtain ⟨new, hevents, htells⟩ := hworks.reports
  rw [htold.events, List.nil_append] at hevents
  have hcurrent : (lastDoor? (Event.notifications e.events)).getD f.engine.door.current = e.door.current := by
    have hview := congrArg View.toMirror htells.replay_eq
    rw [hevents]
    exact (current_replay f.engine.door.view _).symm.trans (congrArg Mirror.current hview)
  have hposts := (hboard.posts f.engine.door.current).trans (b.posts_reportAll e.events _)
  rw [hcurrent] at hposts
  exact hposts

theorem posts_service (f : Firmware) : f.Posts f.service := by
  refine keeps_service ?_ (fun g hg => hg.trans ?_) fun g hg => hg.trans ?_
  · exact posts_work (f.engine.works_after (.tick f.board.millis : Operation ChipStore)) (.refl _)
  · have hboard := (Board.keeps_drifts g.board).transmitNext g.engine f.board.millis (.refl _)
    exact posts_work (g.engine.works_transmitNext g.board _) hboard
  · exact posts_work (g.engine.works_after (.flush g.board.store)) (.of_same (Nat.le_refl _) rfl rfl rfl rfl)

theorem posts_sleep (f : Firmware) : f.Posts f.sleep := Drifts.posts ⟨.refl _, rfl, rfl, rfl⟩

theorem posts_awaitRestart (f : Firmware) (deadline : Nat) : f.Posts (f.awaitRestart deadline) :=
  Drifts.posts ⟨.refl _, rfl, rfl, rfl⟩

theorem posts_restartOrSleep (f : Firmware) : f.Posts f.restartOrSleep := by
  rw [restartOrSleep]
  split
  · next reason hreason =>
    have htaken : f.Posts (f.onBoard fun b => { b with publisher := { b.publisher with restart? := none } }) :=
      posts_of_board rfl (Board.posts_of_same rfl rfl ⟨[], rfl⟩)
    have hlog : (restartEvent reason).notification? = none := by cases reason <;> rfl
    exact (htaken.trans (posts_log _ hlog)).trans (posts_awaitRestart _ _)
  · exact posts_sleep f

theorem posts_startEngine (f : Firmware) (entropy : UInt32) : f.Posts (f.startEngine entropy) := by
  refine keeps_startEngine (Drifts.posts ⟨.refl _, rfl, rfl, rfl⟩) (fun g _ _ hg => hg.trans (posts_log g rfl))
    (fun g hg => hg.trans ?_) fun g hg => hg.trans ((posts_service g).trans (posts_sleep _))
  exact posts_work (g.engine.works_after (.start g.board.store entropy g.board.millis))
    (.of_same (Nat.le_refl _) rfl rfl rfl rfl)

theorem posts_armBeat (f : Firmware) : f.Posts f.armBeat := by
  rw [armBeat_eq]
  exact posts_of_board rfl (Board.posts_of_same rfl rfl ⟨[], rfl⟩)

theorem posts_takeWake (f : Firmware) (w : Wake) : f.Posts (f.takeWake w) := by
  have hwoken : f.Posts (f.work (f.engine.wake w f.board.millis) f.board) :=
    posts_work (f.engine.works_wake w _) (.refl _)
  exact ((hwoken.trans (posts_service _)).trans (posts_armBeat _)).trans (posts_restartOrSleep _)

/-- What is taken from the board for the engine is no notification. -/
theorem posts_wake? {b c : Board} {wakeAt? : Option Nat} {w : Wake} (hwake : wake? b wakeAt? = some (w, c)) (s : DoorState) :
    b.Posts c s s := by
  rw [wake?] at hwake
  repeat' split at hwake
  all_goals cases hwake <;> exact Board.posts_of_same rfl rfl ⟨[], rfl⟩ s

theorem posts_engine (hstep : f.stepEngine? = some g) : f.Posts g := by
  rw [stepEngine?] at hstep
  split at hstep
  · next entropy hfresh =>
    obtain rfl := Option.some.inj hstep
    exact posts_startEngine f entropy
  · next wakeAt? hwaiting =>
    obtain ⟨⟨w, b⟩, hwake, rfl⟩ := Option.map_eq_some_iff.mp hstep
    have htaken : f.Posts { f with board := b } := posts_of_board rfl (posts_wake? hwake)
    exact htaken.trans (posts_takeWake _ w)
  · next deadline next hrestarting =>
    split at hstep
    · obtain rfl := Option.some.inj hstep
      exact posts_awaitRestart f deadline
    · contradiction
  · contradiction

/-- The beat only writes to the log. -/
theorem notifications_beat {beat next : Beat} {now : Nat} {s s' : BeatSignals} {events : List Event}
    (h : beat.step? now s = some (next, s', events)) : Event.notifications events = [] := by
  unfold Beat.step? at h
  repeat' split at h
  all_goals cases h <;> rfl

theorem posts_beat (hstep : f.stepBeat? = some g) : f.Posts g := by
  rw [stepBeat?] at hstep
  split at hstep
  · obtain rfl := Option.some.inj hstep
    have hbegun : f.Posts { f with beat? := some .stopped } :=
      posts_of_board rfl (Board.posts_of_same rfl rfl ⟨[], rfl⟩)
    exact hbegun.trans (posts_log _ rfl)
  · next beat hbeat =>
    obtain ⟨⟨next, signals, events⟩, hbeats, rfl⟩ := Option.map_eq_some_iff.mp hstep
    refine posts_of_board rfl fun s => ?_
    have htaken : f.board.Posts { f.board with signals } s s := Board.posts_of_same rfl rfl ⟨[], rfl⟩ s
    exact htaken.trans ((Board.drifts_reportAll (notifications_beat hbeats) _).posts s)

/-- Every turn but one of the announcer posts what it reports. -/
theorem posts_turn (f : Firmware) {t : Turn} (ht : t ≠ .task .announcer) : f.Posts (f.turn t) := by
  cases t with
  | advance t => exact (drifts_advance f t).posts
  | task task =>
    rw [turn]
    cases hstep : f.step? task with
    | none => exact posts_of_board rfl (Board.Drifts.refl _).posts
    | some g =>
      rw [Option.getD_some]
      cases task with
      | receiver => exact (drifts_receiver hstep).posts
      | engine => exact posts_engine hstep
      | beat => exact posts_beat hstep
      | beamCounter => exact (drifts_beamCounter hstep).posts
      | beamSampler => exact (drifts_beamSampler hstep).posts
      | announcer => exact absurd rfl ht
      | indicator => exact (drifts_indicator hstep).posts

end Firmware

/-! ## Boot -/

namespace Settings

theorem notifications_loadRecord {σ : Type} [Storage σ] (store : σ) (key : StorageKey) (room : Nat) (kind : String)
    (decode : List UInt8 → Except SettingsError Settings) :
    Event.notifications (loadRecord store key room kind decode).2 = [] := by
  unfold loadRecord
  split
  · rfl
  · dsimp only
    split
    · rfl
    · next cause _ => cases cause <;> rfl

theorem notifications_load {σ : Type} [Storage σ] (store : σ) : Event.notifications (load store).2 = [] := by
  have htext := notifications_loadRecord store .configToml maxTextSize "TOML" ofText
  have hbinary := notifications_loadRecord store .config maxSettingsSize "binary config" ofBytes
  unfold load
  generalize loadRecord store .configToml maxTextSize "TOML" ofText = text at htext ⊢
  obtain ⟨answer, events⟩ := text
  dsimp only at htext
  cases answer with
  | ok s =>
    dsimp only
    rw [notifications_append, ← List.singleton_append, notifications_append, htext]
    rfl
  | error cause =>
    dsimp only
    rw [notifications_append, notifications_append, ← List.singleton_append, notifications_append, htext, hbinary]
    split <;> rfl

theorem notifications_embedded (text : String) : Event.notifications (embedded text).2 = [] := by
  unfold embedded
  split <;> rfl

/-- Loading settings only writes to the log. -/
theorem notifications_boot {σ : Type} [Storage σ] (store : σ) : Event.notifications (boot store).2 = [] := by
  have hload := notifications_load store
  unfold boot
  generalize load store = loaded at hload ⊢
  obtain ⟨answer, events⟩ := loaded
  dsimp only at hload
  cases answer with
  | ok s =>
    dsimp only
    rw [notifications_append, hload]
    rfl
  | error cause =>
    have hembedded := notifications_embedded shipped
    generalize embedded shipped = built at hembedded ⊢
    obtain ⟨s, later⟩ := built
    dsimp only at hembedded ⊢
    rw [notifications_append, notifications_append, notifications_append, hload, hembedded]
    rfl

end Settings

/-! ## What the output settles on -/

/-- The level on which the output settles when everything on the channel has been announced. -/
def Board.settledLevel (b : Board) : Bool :=
  (lastDoor? b.publisher.channel).elim b.doorOut.level fun s => decide (s ≠ .closed)

namespace Firmware

/-- What a turn puts on the channel, behind what was there before.  The announcer only takes. -/
def postedBy (f : Firmware) (t : Turn) : List Notification :=
  if t = .task .announcer then [] else (f.turn t).board.publisher.channel.drop f.board.publisher.channel.length

/-- What a row of turns puts on the channel. -/
def posted (f : Firmware) : List Turn → List Notification
  | [] => []
  | t :: row => f.postedBy t ++ (f.turn t).posted row

/-- The log records written between two firmwares, of which the second comes later. -/
def recordsSince (g f : Firmware) : List LogRecord := g.board.log.take (g.board.log.length - f.board.log.length)

theorem posted_append (f : Firmware) (row more : List Turn) :
    f.posted (row ++ more) = f.posted row ++ (f.turns row).posted more := by
  induction row generalizing f with
  | nil => rfl
  | cons t row ih => rw [List.cons_append, posted, posted, ih, turns_cons, List.append_assoc]

/-- From one firmware to a later one some notifications were posted. -/
structure Relays (f g : Firmware) (posted : List Notification) : Prop where
  told : g.Told
  log : ∃ records, g.board.log = records ++ f.board.log ∧
    DoorAfter posted records f.engine.door.current g.engine.door.current
  level : g.board.settledLevel = (lastDoor? posted).elim f.board.settledLevel fun s => decide (s ≠ .closed)

variable {f g h : Firmware} {posted more : List Notification}

theorem Relays.refl (htold : f.Told) : f.Relays f [] := ⟨htold, ⟨[], rfl, .inl rfl⟩, rfl⟩

theorem Relays.trans (hfg : f.Relays g posted) (hgh : g.Relays h more) : f.Relays h (posted ++ more) := by
  obtain ⟨-, ⟨records, hlog, hstate⟩, hlevel⟩ := hfg
  obtain ⟨htold, ⟨later, hlog', hstate'⟩, hlevel'⟩ := hgh
  refine ⟨htold, ⟨later ++ records, ?_, hstate.trans hstate'⟩, ?_⟩
  · rw [hlog', hlog, List.append_assoc]
  · rw [hlevel', hlevel, lastDoor?_append]
    cases lastDoor? more <;> rfl

/-- What is posted goes behind what is on the channel. -/
theorem relays_of_posts (hposts : f.Posts g) (htold : f.Told) :
    f.Relays g (g.board.publisher.channel.drop f.board.publisher.channel.length) := by
  obtain ⟨htold, posted, records, hchannel, hout, hlog, hstate⟩ := hposts htold
  rw [hchannel, List.drop_left]
  refine ⟨htold, ⟨records, hlog, hstate⟩, ?_⟩
  rw [Board.settledLevel, Board.settledLevel, hchannel, hout, lastDoor?_append]
  cases lastDoor? posted <;> rfl

theorem settledLevel_of_drifts {b c : Board} (h : b.Drifts c) : c.settledLevel = b.settledLevel := by
  rw [Board.settledLevel, Board.settledLevel, h.publisher, h.doorOut]

/-- Announcing the first notification on the channel changes nothing about where the output settles. -/
theorem settledLevel_announce {b : Board} {n : Notification} {rest : List Notification}
    (hchannel : b.publisher.channel = n :: rest) :
    (announce { b with publisher := { b.publisher with channel := rest } } n).settledLevel = b.settledLevel := by
  have hset (p : PinTrace) (level : Bool) (now : Nat) : (p.set level now).level = level := by
    unfold PinTrace.set
    split
    · next hsame => exact hsame.symm
    · rfl
  rw [Board.settledLevel, Board.settledLevel, hchannel, lastDoor?_cons]
  cases n with
  | currentDoor s =>
    show (lastDoor? rest).elim (b.doorOut.set (decide (s ≠ .closed)) b.now).level _ = _
    rw [hset]
    cases lastDoor? rest <;> rfl
  | _ =>
    show (lastDoor? rest).elim b.doorOut.level _ = _
    cases lastDoor? rest <;> rfl

theorem relays_announcer (hstep : f.stepAnnouncer? = some g) (htold : f.Told) : f.Relays g [] := by
  rw [stepAnnouncer?] at hstep
  split at hstep
  · obtain rfl := Option.some.inj hstep
    exact ⟨⟨htold.events, htold.mirror⟩, ⟨[_], rfl, .inl rfl⟩, rfl⟩
  · obtain ⟨⟨n, publisher⟩, hreceived, rfl⟩ := Option.map_eq_some_iff.mp hstep
    rw [Publisher.receive?] at hreceived
    split at hreceived
    · next n rest hchannel =>
      cases hreceived
      have hlogged (b : Board) : ∃ record, (announce b n).log = record :: b.log := by cases n <;> exact ⟨_, rfl⟩
      obtain ⟨record, hlog⟩ := hlogged { f.board with publisher := { f.board.publisher with channel := rest } }
      exact ⟨⟨htold.events, htold.mirror⟩, ⟨[record], hlog, .inl rfl⟩, settledLevel_announce hchannel⟩
    · contradiction

theorem relays_turn (htold : f.Told) (t : Turn) : f.Relays (f.turn t) (f.postedBy t) := by
  by_cases ht : t = .task .announcer
  · subst ht
    rw [postedBy, if_pos rfl, turn]
    cases hstep : f.step? .announcer with
    | none => exact .refl htold
    | some g => exact relays_announcer hstep htold
  · rw [postedBy, if_neg ht]
    exact relays_of_posts (f.posts_turn ht) htold

theorem relays_turns (row : List Turn) (htold : f.Told) : f.Relays (f.turns row) (f.posted row) := by
  induction row generalizing f with
  | nil => exact .refl htold
  | cons t row ih =>
    have hturn := relays_turn htold t
    exact hturn.trans (ih hturn.told)

theorem told_boot (store : ChipStore) (busLevel beamLevel : Bool) (plan : List Stimulus) :
    (boot store busLevel beamLevel plan).Told := ⟨rfl, (Engine.Consistent.new _).mirror⟩

/-- Nothing is posted before the engine is started. -/
theorem settledLevel_boot (store : ChipStore) (busLevel beamLevel : Bool) (plan : List Stimulus) :
    (boot store busLevel beamLevel plan).board.settledLevel = false := by
  have hboot := Settings.notifications_boot store
  have hid : Event.notifications (chipId store).2 = [] := by
    unfold chipId
    split <;> rfl
  rw [boot]
  generalize Settings.boot store = loaded at hboot ⊢
  generalize chipId store = id at hid ⊢
  obtain ⟨settings, loading⟩ := loaded
  obtain ⟨id, identifying⟩ := id
  dsimp only at hboot hid ⊢
  -- the board reports nothing but what is logged
  have hboard (b : Board) (line : LineSettings) (level : LogLevel) (text : String) {events : List Event}
      (hlogs : Event.notifications events = []) :
      b.Drifts ((Transmitter.setBreak line false (b.reportAll events)).report (.log level text)) :=
    ((Board.drifts_reportAll hlogs b).trans (Board.drifts_setBreak line false _)).trans (Board.drifts_log _ level text)
  refine (settledLevel_of_drifts (hboard _ _ _ _ ?_)).trans rfl
  rw [notifications_append, notifications_append, notifications_append, hboot, hid]
  rfl

/-- **The output shows the door state that was posted last.**  Whatever the tasks do and in whatever order they go on, once the
channel is empty the output is high exactly if a door state was posted and the last one is not closed.

That state is the current one, and the output right, unless a full channel dropped the last change: where the state posted last
was the current one at some earlier time, from boot on if need be, the output is right later on, or the log has told since then
that the state that is current now was dropped. -/
theorem door_output_shows_last_posted (store : ChipStore) (busLevel beamLevel : Bool) (plan : List Stimulus)
    (earlier later : List Turn) :
    let start := boot store busLevel beamLevel plan
    let f := start.turns earlier
    let g := f.turns later
    g.board.publisher.channel = [] → g.engine.door.active = true →
      g.board.doorOut.level = (lastDoor? (start.posted (earlier ++ later))).any (· ≠ .closed) ∧
      ((lastDoor? (start.posted earlier)).getD .unknown = f.engine.door.current →
        g.board.doorOut.level = decide (g.engine.door.current ≠ .closed) ∨
          TellsDrop (g.recordsSince f) g.engine.door.current) := by
  intro start f g hempty hactive
  have hpast : start.Relays f (start.posted earlier) := relays_turns earlier (told_boot store busLevel beamLevel plan)
  have hrow : f.Relays g (f.posted later) := relays_turns later hpast.told
  have hposted : start.posted (earlier ++ later) = start.posted earlier ++ f.posted later := posted_append start earlier later
  have hlevel : g.board.doorOut.level = (lastDoor? (start.posted (earlier ++ later))).any (· ≠ .closed) := by
    have hsettled := (hpast.trans hrow).level
    rw [← hposted, settledLevel_boot, Board.settledLevel, hempty] at hsettled
    refine Eq.trans hsettled ?_
    cases lastDoor? (start.posted (earlier ++ later)) <;> rfl
  refine ⟨hlevel, fun hknown => ?_⟩
  obtain ⟨records, hlog, hstate⟩ := hrow.log
  rcases hstate with hsame | hdropped
  · have hshown : (lastDoor? (start.posted (earlier ++ later))).getD .unknown = g.engine.door.current := by
      rw [← hsame, ← hknown, hposted, lastDoor?_append]
      cases lastDoor? (f.posted later) <;> rfl
    have hnew : g.engine.door.current ≠ .unknown := hrow.told.mirror.active.mp hactive
    left
    rw [hlevel]
    cases hlast : lastDoor? (start.posted (earlier ++ later)) with
    | none =>
      rw [hlast] at hshown
      exact absurd hshown.symm hnew
    | some s =>
      rw [hlast] at hshown
      obtain rfl : s = g.engine.door.current := hshown
      rfl
  · right
    have hsince : g.recordsSince f = records := by
      rw [recordsSince, hlog, List.length_append, Nat.add_sub_cancel, List.take_left]
    rw [hsince]
    exact hdropped

/-- A chip whose settings are for Security+ 1.0, and believe every door report at once. -/
def plus1Chip : ChipStore :=
  { item := fun key => if key = .config then Settings.encode { security := .plus1, debounce := false } else []
    uniqueId? := some 57 }

/-- Bytes that arrive back to back. -/
def burst (bytes : List UInt8) : List Stimulus := Stimulus.ofBytes 100000 LineSettings.slow.bitTime bytes

/-- The bytes are read as they arrive; the engine goes on when all of them have been read, and then the announcer does. -/
def burstTurns (bytes : List UInt8) : List Turn :=
  [.task .engine, .task .receiver, .task .announcer] ++
    (burst bytes).flatMap (fun s => [.advance s.time, .task .receiver]) ++
    [.advance (100000 + (bytes.length + 1) * 10 * LineSettings.slow.bitTime), .task .receiver, .task .engine] ++
    List.replicate channelCapacity (.task .announcer)

/-- The door opens, and its state is announced. -/
theorem door_output_shows_last_posted_opened :
    let start := boot plus1Chip false false (burst [0x38, 0x52])
    let f := start.turns [.task .engine]
    let g := f.turns (burstTurns [0x38, 0x52])
    g.board.publisher.channel = [] ∧ g.engine.door.active = true ∧
      g.board.doorOut.level = (lastDoor? (start.posted ([.task .engine] ++ burstTurns [0x38, 0x52]))).any (· ≠ .closed) ∧
      (g.board.doorOut.level = decide (g.engine.door.current ≠ .closed) ∨
        TellsDrop (g.recordsSince f) g.engine.door.current) := by
  have hshows := door_output_shows_last_posted plus1Chip false false (burst [0x38, 0x52]) [.task .engine]
    (burstTurns [0x38, 0x52])
  dsimp only at hshows ⊢
  obtain ⟨hlevel, htrue⟩ := hshows (by decide +kernel) (by decide +kernel)
  exact ⟨by decide +kernel, by decide +kernel, hlevel, htrue (by decide +kernel)⟩

/-- The door is open, the light and the lock are switched five times, and the door is closed. -/
def busyBytes : List UInt8 :=
  [0x38, 0x52, 0x3a, 0x54, 0x3a, 0x58, 0x3a, 0x54, 0x3a, 0x58, 0x3a, 0x54, 0x38, 0x55]

/-- **The output may stay wrong.**  The engine takes a burst of bytes before the announcer goes on; the channel has no room for
the last door state, and when it is empty, nothing is left that could bring the output down. -/
theorem door_output_left_high :
    let g := (boot plus1Chip false false (burst busyBytes)).turns (burstTurns busyBytes)
    g.board.publisher.channel = [] ∧ g.engine.door.active = true ∧ g.engine.door.current = .closed ∧
      g.board.doorOut.level = true := by
  decide +kernel

end Firmware

end DoorBridge
