import DoorBridge.Arbiter.Script
import DoorBridge.Proofs.Engine.Strokes
import DoorBridge.Proofs.Session
import DoorBridge.Storage.Memory

/-!
# Proofs.Session.Strokes — a button press is never separated from its release

Without a reset, what was sent and what is queued are whole strokes one after another (`Unbroken`): packets leave the
queue at the front alone, and whatever else an operation takes out or adds are whole strokes.
-/

namespace DoorBridge

/-- What an operation adds to the queue are whole strokes. -/
theorem strokes_accepts {σ : Type} (e : Engine) (o : Operation σ) :
    Strokes e.settings.security (e.accepts o) := by
  obtain ⟨taken, htakenPart, htaken⟩ := (e.left o).takes_eq_flatten (e.asks o)
  rw [Engine.accepts, htaken]
  exact Strokes.flatten fun seq hseq => strokes_of_offer (Engine.offer_asks (htakenPart.subset hseq))

theorem Engine.encode_plus1 {e : Engine} (hplus1 : e.settings.security = .plus1) (a : PacketAction) :
    e.encode a.packet = match a.edge? with
      | some b => .ok [b.byte]
      | none => .error .encodingRange := by
  rw [Engine.encode, hplus1]
  rfl

/-- What was sent and what is queued are whole strokes, and on Security+ 1.0 the rows are the edges that were sent. -/
structure Unbroken (s : Session) : Prop where
  strokes : Strokes s.engine.settings.security (s.sent ++ s.engine.queue.actions)
  rows : s.engine.settings.security = .plus1 → s.rows.map some = s.sent.map fun a => a.edge?.map fun b => [b.byte]

namespace Unbroken

variable {s : Session}

theorem left (h : Unbroken s) {σ : Type} {o : Operation σ} (ho : o.request? ≠ some .reset) :
    Strokes s.engine.settings.security (s.sent ++ (s.engine.left o).actions) := by
  by_cases hopen : o.request? = some .openDoor
  · rw [Engine.left_openDoor hopen]
    split
    · exact h.strokes.unblinked
    · exact h.strokes
  · rw [Engine.left_eq_queue hopen ho]
    exact h.strokes

variable {β σ : Type} [Bus β] [Storage σ]

theorem operate (h : Unbroken s) {o : Operation σ} (ho : o.request? ≠ some .reset) : Unbroken (s.operate o) := by
  have hsecurity : (s.operate o).engine.settings.security = s.engine.settings.security :=
    Engine.security_after s.engine o
  have hqueue : (s.operate o).engine.queue.actions = _ := Engine.actions_after s.engine o
  constructor
  · rw [hsecurity, hqueue, ← List.append_assoc]
    exact (h.left ho).append (strokes_accepts s.engine o)
  · rw [hsecurity]
    exact h.rows

theorem transmit (hsound : Sound s) (h : Unbroken s) (bus : β) (now : Nat) : Unbroken (s.transmit bus now) := by
  constructor
  · rw [hsound.sent_queued_transmit bus now, s.security_transmit bus now]
    exact h.strokes
  · intro hplus1
    rw [s.security_transmit bus now] at hplus1
    rcases hsound.transmit_cases bus now with ⟨arbiter, events, -, hidle⟩ | ⟨a, rest, row, arbiter, -, hrow, -, hsent⟩
    · rw [hidle]
      exact h.rows hplus1
    have hedge : a.edge?.map (fun b => [b.byte]) = some row := by
      rw [Engine.encode_plus1 hplus1] at hrow
      split at hrow
      · next b hb =>
        rw [hb, ← Except.ok.inj hrow]
        rfl
      · contradiction
    rw [hsent, List.map_append, List.map_append, h.rows hplus1, List.map_singleton, List.map_singleton, hedge]

theorem take (hsound : Sound s) (h : Unbroken s) {step : Step β σ} (hstep : step.isReset = false) :
    Unbroken (s.take step) := by
  cases step with
  | operation o => exact h.operate (of_decide_eq_false hstep)
  | transmit bus now => exact h.transmit hsound bus now

theorem run (hsound : Sound s) (h : Unbroken s) {steps : List (Step β σ)}
    (hsteps : ∀ step ∈ steps, step.isReset = false) : Unbroken (s.run steps) :=
  hsound.run_induction h fun _ hx h step hmem => h.take hx (hsteps step hmem)

theorem new (settings : Settings) : Unbroken (.new settings) := ⟨.nil, fun _ => rfl⟩

end Unbroken

/-- The row of a Security+ 1.0 button edge. -/
def Button.row (b : Button) : List UInt8 := [b.byte]

/-- The rows of a Security+ 1.0 session, completed by what is left of a stroke that has begun. -/
theorem Unbroken.rows_complete {s : Session} (h : Unbroken s) (hplus1 : s.engine.settings.security = .plus1) :
    ∃ (presses : List Button) (missing : List (List UInt8)), (∀ b ∈ presses, b.isPress = true) ∧
      s.rows ++ missing = (presses.flatMap Button.edges).map Button.row ∧ missing.length ≤ 2 ∧
      missing.map .ok <+: s.engine.queue.actions.map fun a => s.engine.encode a.packet := by
  obtain ⟨done, out, left, rest, hsent, hqueue, hdone, hbegun, -⟩ := h.strokes.split
  rw [hplus1] at hdone hbegun
  obtain ⟨presses, hpresses, hedges⟩ := (hdone.append hbegun.strokes).edges
  rw [← List.append_assoc, ← hsent, List.map_append] at hedges
  obtain ⟨sentEdges, leftEdges, hsplit, hsentEdges, hleftEdges⟩ := List.append_eq_map_iff.mp hedges
  have hrows : s.rows = sentEdges.map Button.row := by
    apply (List.map_inj_right fun _ _ => Option.some.inj).mp
    have hmap : (s.sent.map fun a => a.edge?.map fun b => [b.byte]) =
        (s.sent.map PacketAction.edge?).map (Option.map Button.row) := by
      rw [List.map_map]
      rfl
    rw [h.rows hplus1, hmap, ← hsentEdges, List.map_map, List.map_map]
    rfl
  have hencoded : (left.map fun a => s.engine.encode a.packet) = (leftEdges.map Button.row).map .ok := by
    have hmap : (left.map fun a => s.engine.encode a.packet) =
        (left.map PacketAction.edge?).map fun b? => match b? with
          | some b => .ok [b.byte]
          | none => .error .encodingRange := by
      rw [List.map_map]
      exact List.map_congr_left fun a _ => Engine.encode_plus1 hplus1 a
    rw [hmap, ← hleftEdges, List.map_map, List.map_map]
    rfl
  refine ⟨presses, leftEdges.map Button.row, hpresses, ?_, ?_, ?_⟩
  · rw [hrows, hsplit, List.map_append]
  · have hlength := congrArg List.length hleftEdges
    rw [List.length_map, List.length_map] at hlength
    rw [List.length_map, hlength]
    exact hbegun.length_le
  · rw [hqueue, List.map_append, hencoded]
    exact List.prefix_append _ _

/-- **A button press is never separated from its release.**  In any run without a reset, on Security+ 2.0 what comes
after a door press, of what was sent and what is queued, is the release of the same action and id.  On Security+ 1.0
the rows on the wire are presses, each with its two releases; what may be missing of the last one heads the queue. -/
theorem press_followed_by_release {β σ : Type} [Bus β] [Storage σ] {settings : Settings} {steps : List (Step β σ)}
    (hsteps : ∀ step ∈ steps, step.isReset = false) :
    let s := (Session.new settings).run steps
    (settings.security = .plus2 → ∀ before press after action id, s.sent = before ++ press :: after →
      press.packet = .doorAction action true id →
      ∃ release rest, after ++ s.engine.queue.actions = release :: rest ∧
        release.packet = .doorAction action false id) ∧
    (settings.security = .plus1 → ∃ (presses : List Button) (missing : List (List UInt8)),
      (∀ b ∈ presses, b.isPress = true) ∧
      s.rows ++ missing = (presses.flatMap fun b => [b, b.release, b.release]).map (fun b => [b.byte]) ∧
      missing.length ≤ 2 ∧
      missing.map .ok <+: s.engine.queue.actions.map fun a => s.engine.encode a.packet) := by
  intro s
  have hunbroken : Unbroken s := (Unbroken.new settings).run (Sound.new settings) hsteps
  have hsecurity : s.engine.settings.security = settings.security := (Session.new settings).security_run steps
  constructor
  · intro hplus2 before press after action id hsent hpress
    have hstrokes := hunbroken.strokes
    rw [hsecurity, hplus2, hsent, List.append_assoc, List.cons_append] at hstrokes
    exact hstrokes.after_press rfl hpress
  · intro hplus1
    exact hunbroken.rows_complete (hsecurity.trans hplus1)

/-- A delayed close that is cancelled after its first blink went out, with a collision and a failed write on the
way. -/
def cancelledSteps : List (Step BusScript MemoryStore) :=
  [.operation (.request .closeDoor), .operation .beat, .transmit {} 0, .transmit { busy := [true] } 1000,
    .operation (.request .openDoor), .transmit {} 2000, .transmit { writeError? := some .timeout } 2500,
    .transmit {} 3000, .transmit {} 4000]

/-- The releases of the blink are not thrown out, and those of the press that puts the light back are still queued. -/
theorem press_followed_by_release_cancelled :
    let s := (Session.new { security := .plus1, ttcSeconds := 5 }).run cancelledSteps
    s.rows = [[0x32], [0x33], [0x33], [0x32]] ∧
      ∃ (presses : List Button) (missing : List (List UInt8)), (∀ b ∈ presses, b.isPress = true) ∧
        s.rows ++ missing = (presses.flatMap fun b => [b, b.release, b.release]).map (fun b => [b.byte]) ∧
        missing.length ≤ 2 ∧
        missing.map .ok <+: s.engine.queue.actions.map fun a => s.engine.encode a.packet := by
  have hsteps : ∀ step ∈ cancelledSteps, step.isReset = false := by decide
  exact ⟨by decide +kernel, (press_followed_by_release hsteps).2 rfl⟩

end DoorBridge
