import DoorBridge.Proofs.Chronicle

/-!
# Proofs.Setback — whether the next boot starts ahead, when a write of the counter failed

Places are counted in steps of the counter from the first stored code.  `CounterAt origin p s` says that a store has the
code at `p`; a boot over it starts at `nextStart origin p`.

* `Logged.Resumes`: what a boot does to the counter record, and where its frames lie (`Logged.resumes_run`).
* `Chronicle.Ahead`, `Chronicle.Behind`: with one failed write at most, either the next boot starts past all frames, or
  the last boot has sent the code that the next one starts with.  The first holds whenever the last boot is covered, the
  second otherwise (`Tracked.add`, `tracked_chronicle`).
* `next_boot_ahead_iff` puts it in terms of codes; `code_resent_after_failed_save` is a history where the next boot
  starts with a code that was sent.
-/

namespace DoorBridge

/-- A counter is ahead of a code if it is another one and comes some steps after it. -/
def IsAhead (counter code : Nat) : Prop := counter ≠ code ∧ ∃ k, 0 < k ∧ counter = codeAfter code k

variable {origin p q : Nat}

theorem isAhead_codeAfter (hpos : 0 < origin) (hlt : origin < counterBound) {m n : Nat} (hmn : m < n)
    (hround : n < cycleLength) : IsAhead (codeAfter origin n) (codeAfter origin m) := by
  refine ⟨(codeAfter_ne hpos hlt hmn (by omega)).symm, n - m, by omega, ?_⟩
  rw [codeAfter_add, Nat.add_sub_cancel' (Nat.le_of_lt hmn)]

theorem nextStart_add (origin s p : Nat) : nextStart origin (s + p) = s + nextStart (codeAfter origin s) p := by
  rw [nextStart, nextStart, codeAfter_add, Nat.add_assoc]

/-! ## The stored counter -/

/-- Whether an incident keeps the counter from being read. -/
def Incident.hidesCounter {β : Type} : Incident β → Bool
  | .fault .rollingCode .read (some _) => true
  | _ => false

theorem readable_onFaults {β : Type} {i : Incident β} (hi : i.hidesCounter = false) {s : MemoryStore}
    (hs : s.fault? .rollingCode .read = none) : (i.onFaults s).fault? .rollingCode .read = none := by
  cases i with
  | fault key access cause? =>
    rw [Incident.onFaults, MemoryStore.fault?_setFault]
    split
    · next h =>
      obtain ⟨rfl, rfl⟩ := h
      cases cause? with
      | none => rfl
      | some cause => contradiction
    · exact hs
  | _ => exact hs

/-- The store has the code at a place, and it can be read. -/
structure CounterAt (origin p : Nat) (s : MemoryStore) : Prop where
  readable : s.fault? .rollingCode .read = none
  stored : ∃ w, s.value? .rollingCode = some (wordBytes w) ∧ w.toNat % counterBound = codeAfter origin p

theorem CounterAt.establishId {s : MemoryStore} (h : CounterAt origin p s) (entropy : UInt32) :
    CounterAt origin p (Identity.establishId s entropy).2.1 := by
  refine ⟨?_, ?_⟩
  · rw [Identity.fault?_establishId]
    exact h.readable
  · rw [Identity.counter_establishId]
    exact h.stored

/-- A boot starts some steps after the stored code. -/
theorem CounterAt.startCounter {s : MemoryStore} (h : CounterAt origin p s) (hpos : 0 < origin)
    (hlt : origin < counterBound) (entropy : UInt32) :
    Identity.startCounter s entropy = codeAfter origin (nextStart origin p) := by
  obtain ⟨w, hvalue, hw⟩ := h.stored
  rw [Identity.startCounter_of_value? h.readable hvalue, bootCounter_stored hlt (codeAfter_pos hpos p) hw, nextStart]

/-! ## One boot -/

namespace Logged

/-- All frames carry codes from before a place. -/
def SendsBefore (origin top : Nat) (l : Logged) : Prop :=
  ∀ row ∈ framesOf l.log, ∃ m < top, codeOf? row = some (codeAfter origin m)

theorem SendsBefore.mono {l : Logged} {top top' : Nat} (h : l.SendsBefore origin top) (hle : top ≤ top') :
    l.SendsBefore origin top' := by
  intro row hrow
  obtain ⟨m, hm, hcode⟩ := h row hrow
  exact ⟨m, hm.trans_le hle, hcode⟩

/-- Some frame carries the code at a place. -/
def Sends (origin m : Nat) (l : Logged) : Prop := ∃ row ∈ framesOf l.log, codeOf? row = some (codeAfter origin m)

/-- A boot that found the counter at a place has left it at another one. -/
structure Resumes (origin p q : Nat) (l : Logged) : Prop where
  counter : CounterAt origin q l.bridge.store
  le : p ≤ q
  spent : q ≤ p + saveInterval + codesIn l.log
  moved : failuresIn l.log = 0 → nextStart origin p ≤ q
  whole : failuresIn l.log = 0 → covered l.log = true
  ahead : covered l.log = true → l.SendsBefore origin (nextStart origin q)
  behind : covered l.log = false → l.Sends origin (nextStart origin q)
  once : failuresIn l.log ≤ 1 → l.SendsBefore origin (nextStart origin (nextStart origin q))

variable {β : Type} [Bus β]

/-- Places of a boot, counted from its start, as places of the history. -/
theorem sendsBefore_of_start {l : Logged} {s top : Nat}
    (h : ∀ row ∈ framesOf l.log, ∃ m < top, codeOf? row = some (codeAfter (codeAfter origin s) m)) :
    l.SendsBefore origin (s + top) := by
  intro row hrow
  obtain ⟨m, hm, hcode⟩ := h row hrow
  rw [codeAfter_add] at hcode
  exact ⟨s + m, by omega, hcode⟩

/-- What a boot on course has done to the counter that it found. -/
theorem OnCourse.resumes {l : Logged} {c n a : Nat} {p? : Option Nat} {w : UInt32} (hlt : origin < counterBound)
    (hreadable : l.bridge.store.fault? .rollingCode .read = none) (hw : w.toNat % counterBound = codeAfter origin p)
    (hc : c = codeAfter origin (nextStart origin p)) (h : OnCourse c n a p? (some (wordBytes w)) l) :
    ∃ q, l.Resumes origin p q := by
  have hbounds := nextStart_bounds origin p
  have hused := h.course.codesIn_eq
  -- the place of the stored counter, and the start of the next boot counted from this one's
  obtain ⟨q, hcounter, hle, hspent, hresume, hmoved⟩ : ∃ q, CounterAt origin q l.bridge.store ∧ p ≤ q ∧
      q ≤ p + saveInterval + n ∧ nextStart origin q = nextStart origin p + resumeAt c p? ∧
      (p? = some a → nextStart origin p ≤ q) := by
    have hstored := h.stored
    cases p? with
    | none => exact ⟨p, ⟨hreadable, w, hstored, hw⟩, Nat.le_refl p, by omega, rfl, nofun⟩
    | some k =>
      have hk := h.course.coverOf_eq.2 k rfl
      have hcode : (UInt32.ofNat (codeAfter c k)).toNat % counterBound = codeAfter origin (nextStart origin p + k) := by
        rw [toNat_ofNat_codeAfter (hc ▸ codeAfter_lt hlt _), hc, codeAfter_add]
      refine ⟨nextStart origin p + k, ⟨hreadable, _, hstored, hcode⟩, by omega, ?_, ?_, fun _ => by omega⟩
      · rw [saveInterval]
        omega
      · rw [nextStart_add, ← hc]
        rfl
  refine ⟨q, hcounter, hle, hused ▸ hspent, fun hnone => hmoved (h.course.saved_of_no_failure hnone),
    h.course.covered_of_no_failure, fun hcovered => ?_, fun hopen => ?_, fun hone => ?_⟩
  · rw [hresume]
    exact sendsBefore_of_start (hc ▸ h.course.sends_of_covered hcovered)
  · obtain ⟨row, hrow, hcode⟩ := h.course.sends_of_not_covered hopen
    refine ⟨row, hrow, ?_⟩
    rw [hcode, hresume, hc, codeAfter_add]
  · -- the last attempt came no later than the next start, so no frame lies further than a boot from there
    have htried := h.course.tried_le_resumeAt hone
    have hsends := sendsBefore_of_start (hc ▸ h.course.sends)
    refine hsends.mono ?_
    rw [← nextStart_add]
    exact nextStart_mono origin (by omega)

theorem resumes_run {settings : Settings} (hpos : 0 < origin) (hlt : origin < counterBound)
    (hplus2 : settings.security = .plus2) {store : MemoryStore} (h : CounterAt origin p store) (entropy : UInt32)
    (now : Nat) {incidents : List (Incident β)}
    (hordinary : ∀ i ∈ incidents, i.isOrdinary = true ∧ i.hidesCounter = false) (cut : Cut β) :
    ∃ q, ((start settings store entropy now).run incidents cut).Resumes origin p q := by
  obtain ⟨w, hvalue, hw⟩ := h.stored
  obtain ⟨n, a, p?, hcourse⟩ := onCourse_run hplus2 store entropy now (fun i hi => (hordinary i hi).1) cut
  rw [hvalue] at hcourse
  refine hcourse.resumes hlt ?_ hw (h.startCounter hpos hlt entropy)
  refine faults_run (P := fun fault? => fault? .rollingCode .read = none) hplus2 h.readable entropy now ?_ cut
  intro i hi s hs
  exact readable_onFaults (hordinary i hi).2 hs

end Logged

/-! ## Many boots -/

/-- A Security+ 2.0 boot of ordinary incidents, in which the counter can be read. -/
def Stint.Ordinary {β : Type} : Stint β → Prop
  | .failed _ => True
  | .full settings _ _ incidents _ =>
    settings.security = .plus2 ∧ ∀ i ∈ incidents, i.isOrdinary = true ∧ i.hidesCounter = false

namespace Chronicle

/-- Number of writes of the counter that failed. -/
def failures (h : Chronicle) : Nat := (h.boots.map fun l => failuresIn l.log).sum

/-- Codes used, and those skipped at each boot. -/
def codesSpent (h : Chronicle) : Nat := (h.boots.map fun l => saveInterval + codesIn l.log).sum

theorem failures_concat (store : MemoryStore) (boots : List Logged) (l : Logged) :
    failures ⟨store, boots ++ [l]⟩ = (boots.map fun l => failuresIn l.log).sum + failuresIn l.log := by
  simp [failures]

theorem codesSpent_concat (store : MemoryStore) (boots : List Logged) (l : Logged) :
    codesSpent ⟨store, boots ++ [l]⟩ =
      (boots.map fun l => saveInterval + codesIn l.log).sum + (saveInterval + codesIn l.log) := by
  simp [codesSpent]

/-- All frames lie before the start of the next boot. -/
structure Ahead (origin p : Nat) (h : Chronicle) : Prop where
  sends : ∀ l ∈ h.boots, l.SendsBefore origin (nextStart origin p)
  covered : ∀ l, h.boots.getLast? = some l → DoorBridge.covered l.log = true

/-- The last boot has sent the code that the next one starts with, and none that the one after that starts with or that
comes later. -/
structure Behind (origin p : Nat) (h : Chronicle) : Prop where
  failed : 0 < h.failures
  split : ∃ earlier last, h.boots = earlier ++ [last] ∧
    (∀ l ∈ earlier, l.SendsBefore origin (nextStart origin p)) ∧ covered last.log = false ∧
    last.Sends origin (nextStart origin p) ∧ last.SendsBefore origin (nextStart origin (nextStart origin p))

/-- What is known of boots with one failed write at most. -/
structure Tracked (origin p : Nat) (h : Chronicle) : Prop where
  counter : CounterAt origin p h.store
  spent : p ≤ h.codesSpent
  place : h.Ahead origin p ∨ h.Behind origin p

variable {h : Chronicle} {l : Logged}

/-- With a failed write behind it, the next boot catches up. -/
theorem Behind.sendsBefore (hbehind : h.Behind origin p) (hmoved : nextStart origin p ≤ q) :
    ∀ l ∈ h.boots, l.SendsBefore origin (nextStart origin q) := by
  obtain ⟨earlier, last, hboots, hearlier, -, -, hlast⟩ := hbehind.split
  have hbounds := nextStart_bounds origin p
  rw [hboots]
  intro l hl
  rcases List.mem_append.mp hl with hl | hl
  · exact (hearlier l hl).mono (nextStart_mono origin (by omega))
  · rw [List.mem_singleton.mp hl]
    exact hlast.mono (nextStart_mono origin hmoved)

/-- One more boot, with one failed write at most in all of them. -/
theorem Tracked.concat (h' : h.Tracked origin p) (hl : l.Resumes origin p q)
    (honce : h.failures + failuresIn l.log ≤ 1) : Tracked origin q ⟨l.bridge.store, h.boots ++ [l]⟩ := by
  have hspent : q ≤ codesSpent ⟨l.bridge.store, h.boots ++ [l]⟩ := by
    have hold : p ≤ (h.boots.map fun l => saveInterval + codesIn l.log).sum := h'.spent
    have hnew := hl.spent
    rw [codesSpent_concat]
    omega
  have hlast (l' : Logged) (hl' : (h.boots ++ [l]).getLast? = some l') : l = l' := by
    simpa using hl'
  -- the boots before this one sent nothing that the next boot may send
  have hearlier : ∀ l ∈ h.boots, l.SendsBefore origin (nextStart origin q) := by
    rcases h'.place with hahead | hbehind
    · exact fun l' hl' => (hahead.sends l' hl').mono (nextStart_mono origin hl.le)
    · have hfailed := hbehind.failed
      exact hbehind.sendsBefore (hl.moved (by omega))
  refine ⟨hl.counter, hspent, ?_⟩
  cases hcovered : covered l.log with
  | true =>
    refine .inl ⟨fun l' hl' => ?_, fun l' hl' => hlast l' hl' ▸ hcovered⟩
    rcases List.mem_append.mp hl' with hl' | hl'
    · exact hearlier l' hl'
    · rw [List.mem_singleton.mp hl']
      exact hl.ahead hcovered
  | false =>
    have hfailed : 0 < failuresIn l.log := by
      by_contra hnone
      have hwhole := hl.whole (Nat.eq_zero_of_not_pos hnone)
      rw [hwhole] at hcovered
      exact Bool.noConfusion hcovered
    refine .inr ⟨?_, h.boots, l, rfl, hearlier, hcovered, hl.behind hcovered, hl.once (by omega)⟩
    rw [failures_concat]
    omega

variable {β : Type} [Bus β]

theorem Tracked.add (hpos : 0 < origin) (hlt : origin < counterBound) (h' : h.Tracked origin p) {stint : Stint β}
    (hordinary : stint.Ordinary) (honce : (h.add stint).failures ≤ 1) : ∃ q, (h.add stint).Tracked origin q := by
  cases stint with
  | failed entropy =>
    refine ⟨p, h'.counter.establishId entropy, h'.spent, ?_⟩
    exact h'.place.imp (fun ha => ⟨ha.sends, ha.covered⟩) fun hb => ⟨hb.failed, hb.split⟩
  | full settings entropy now incidents cut =>
    obtain ⟨hplus2, hincidents⟩ := hordinary
    obtain ⟨q, hresumes⟩ := Logged.resumes_run hpos hlt hplus2 h'.counter entropy now hincidents cut
    rw [Chronicle.add, failures_concat] at honce
    exact ⟨q, h'.concat hresumes honce⟩

theorem failures_le_add (h : Chronicle) (stint : Stint β) : h.failures ≤ (h.add stint).failures := by
  cases stint with
  | failed entropy => exact Nat.le_refl _
  | full settings entropy now incidents cut =>
    rw [Chronicle.add, failures_concat]
    exact Nat.le_add_right _ _

theorem tracked_chronicle (hpos : 0 < origin) (hlt : origin < counterBound) {store : MemoryStore}
    (hcounter : CounterAt origin 0 store) {stints : List (Stint β)} (hordinary : ∀ stint ∈ stints, stint.Ordinary)
    (honce : (chronicle store stints).failures ≤ 1) : ∃ p, (chronicle store stints).Tracked origin p := by
  refine chronicle_induction (P := fun h => h.failures ≤ 1 → ∃ p, h.Tracked origin p) ?_ ?_ honce
  · have hahead : Ahead origin 0 { store } := by
      constructor
      · exact fun l hl => absurd hl List.not_mem_nil
      · exact fun l hl => absurd hl.symm (Option.some_ne_none l)
    exact fun _ => ⟨0, hcounter, Nat.zero_le _, .inl hahead⟩
  · intro h ih stint hstint honce
    obtain ⟨p, h'⟩ := ih ((h.failures_le_add stint).trans honce)
    exact h'.add hpos hlt (hordinary stint hstint) honce

end Chronicle

/-- **When the next boot starts ahead of all codes sent**, if one write of the counter failed at most: exactly when the
last boot is covered.  Otherwise the last boot has sent the code that the next one starts with. -/
theorem next_boot_ahead_iff {β : Type} [Bus β] {store : MemoryStore} {stored : UInt32} {stints : List (Stint β)}
    {settings : Settings} (hreadable : store.fault? .rollingCode .read = none)
    (hstored : store.value? .rollingCode = some (wordBytes stored)) (hadvanced : stored.toNat % counterBound ≠ 0)
    (hordinary : ∀ stint ∈ stints, stint.Ordinary) (honce : (chronicle store stints).failures ≤ 1)
    (hround : (chronicle store stints).codesSpent + saveInterval < cycleLength)
    (hplus2 : settings.security = .plus2) (entropy : UInt32) (now : Nat) :
    let h := chronicle store stints
    let next := (Bridge.start settings h.store entropy now).firstCounter
    ((∀ l ∈ h.boots, ∀ row ∈ framesOf l.log, ∃ code, codeOf? row = some code ∧ IsAhead next code) ↔
        ∀ l, h.boots.getLast? = some l → covered l.log = true) ∧
      ∀ l, h.boots.getLast? = some l → covered l.log = false → ∃ row ∈ framesOf l.log, codeOf? row = some next := by
  intro h next
  have hpos : 0 < stored.toNat % counterBound := Nat.pos_of_ne_zero hadvanced
  have hlt : stored.toNat % counterBound < counterBound := Nat.mod_lt _ (by decide)
  have hcounter : CounterAt (stored.toNat % counterBound) 0 store := ⟨hreadable, stored, hstored, rfl⟩
  generalize stored.toNat % counterBound = origin at hpos hlt hcounter
  obtain ⟨p, htracked⟩ := Chronicle.tracked_chronicle hpos hlt hcounter hordinary honce
  have hnext : next = codeAfter origin (nextStart origin p) := by
    have hidentity := (Engine.core_eq_iff.mp (Engine.core_start hplus2 h.store entropy now).1).1
    rw [Identity.identity_restore] at hidentity
    exact (congrArg Identity.rolling hidentity).trans (htracked.counter.startCounter hpos hlt entropy)
  have hbounds := (nextStart_bounds origin p).2
  have hspent := htracked.spent
  rw [saveInterval] at hround
  rw [hnext]
  rcases htracked.place with hahead | hbehind
  · refine ⟨⟨fun _ => hahead.covered, fun _ l hl row hrow => ?_⟩, fun l hl hopen => ?_⟩
    · obtain ⟨m, hm, hcode⟩ := hahead.sends l hl row hrow
      exact ⟨_, hcode, isAhead_codeAfter hpos hlt hm (by omega)⟩
    · rw [hahead.covered l hl] at hopen
      exact Bool.noConfusion hopen
  · obtain ⟨earlier, last, hboots, -, hopen, ⟨row, hrow, hcode⟩, -⟩ := hbehind.split
    have hlast : h.boots.getLast? = some last := by
      rw [show h.boots = earlier ++ [last] from hboots, List.getLast?_concat]
    refine ⟨⟨fun hall => ?_, fun hcovered => ?_⟩, fun l hl _ => ?_⟩
    · have hmem : last ∈ h.boots := List.mem_of_getLast? hlast
      obtain ⟨code, hcode', hne, -⟩ := hall last hmem row hrow
      rw [hcode] at hcode'
      exact absurd (Option.some.inj hcode') hne
    · rw [hcovered last hlast] at hopen
      exact Bool.noConfusion hopen
    · rw [hlast] at hl
      rw [← Option.some.inj hl]
      exact ⟨row, hrow, hcode⟩

/-- A boot whose write of the counter fails in the tenth of ten passes, and what comes after that. -/
def setback (later : List (Incident BusScript)) : List (Stint BusScript) :=
  [.full {} 0 0 (.fault .rollingCode .write (some .flash) :: tenPasses 0 ++ .fault .rollingCode .write none :: later)
    .idle]

theorem ordinary_setback {later : List (Incident BusScript)}
    (hlater : ∀ i ∈ later, i.isOrdinary = true ∧ i.hidesCounter = false) : ∀ stint ∈ setback later, stint.Ordinary := by
  have hten : ∀ i ∈ tenPasses 0, i.isOrdinary = true ∧ i.hidesCounter = false := by decide
  intro stint hstint
  rw [List.mem_singleton.mp hstint]
  refine ⟨rfl, fun i hi => ?_⟩
  rcases List.mem_append.mp hi with hi | hi
  · rcases List.mem_cons.mp hi with rfl | hi
    · decide
    · exact hten i hi
  · rcases List.mem_cons.mp hi with rfl | hi
    · decide
    · exact hlater i hi

/-- If power is lost right after the write that failed, the next boot starts ahead of all ten codes. -/
theorem next_boot_ahead_iff_stopped :
    let h := chronicle (storeOf 57) (setback [])
    h.failures = 1 ∧ (Bridge.start {} h.store 0 0).firstCounter = 77 ∧
      h.boots.map (fun l => (framesOf l.log).map codeOf?) = [(List.range 10).map fun i => some (67 + i)] ∧
      ∀ l ∈ h.boots, ∀ row ∈ framesOf l.log, ∃ code, codeOf? row = some code ∧
        IsAhead (Bridge.start {} h.store 0 0).firstCounter code := by
  intro h
  have hreadable : (storeOf 57).fault? .rollingCode .read = none := rfl
  have hstored : (storeOf 57).value? .rollingCode = some (wordBytes 57) := rfl
  have hadvanced : (57 : UInt32).toNat % counterBound ≠ 0 := by decide
  have honce : h.failures ≤ 1 := by decide +kernel
  have hround : h.codesSpent + saveInterval < cycleLength := by decide +kernel
  have hcovered : ∀ l ∈ h.boots, covered l.log = true := by decide +kernel
  have hordinary : ∀ stint ∈ setback [], stint.Ordinary := ordinary_setback nofun
  have hplus2 : ({} : Settings).security = .plus2 := rfl
  have hahead := (next_boot_ahead_iff hreadable hstored hadvanced hordinary honce hround hplus2 0 0).1
  refine ⟨by decide +kernel, by decide +kernel, by decide +kernel, hahead.mpr fun l hl => ?_⟩
  exact hcovered l (List.mem_of_getLast? hl)

/-- One more pass sends the code 77, and the next boot starts with it again: the step taken at boot does not cover the
gap. -/
theorem code_resent_after_failed_save :
    let h := chronicle (storeOf 57) (setback [.step (.service {} 10000)])
    (∀ stint ∈ setback [.step (.service {} 10000)], stint.Ordinary) ∧
      h.boots.map (fun l => l.log.filter fun entry => entry.row?.isNone && entry != .code) =
        [[.save 67 false true, .save 77 false false]] ∧
      h.boots.map (fun l => (framesOf l.log).map codeOf?) = [(List.range 11).map fun i => some (67 + i)] ∧
      (Bridge.start {} h.store 0 0).firstCounter = 77 ∧ ¬ IsAhead 77 77 := by
  refine ⟨ordinary_setback ?_, by decide +kernel, by decide +kernel, by decide +kernel, fun h => h.1 rfl⟩
  intro i hi
  rw [List.mem_singleton.mp hi]
  exact ⟨rfl, rfl⟩

end DoorBridge
