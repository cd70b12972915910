import DoorBridge.Proofs.Frame.Reader
import DoorBridge.Proofs.Message

/-!
# Proofs.Frame.Stream — no frame of a clean stream is lost

A stream is a row of segments, each some noise without a preamble and then a frame whose bytes come in time.  A reader at
rest passes over the noise and the first two bytes of the preamble (`feedAll_quiet`), takes the rest of the frame
(`feedAll_receiving`), and is at rest again (`feedAll_segment`).  So every frame is emitted on its last byte and nothing
else is answered (`clean_stream_read`).
-/

namespace DoorBridge

namespace FrameReader

/-! ## Rows of bytes -/

/-- The answers to a row of bytes, each with its time, and the reader after it. -/
def feedAll (r : FrameReader) : List (UInt8 × Nat) → List (Except FrameError (Option Frame)) × FrameReader
  | [] => ([], r)
  | x :: bytes =>
    let rest := (r.feed x.1 x.2).2.feedAll bytes
    ((r.feed x.1 x.2).1 :: rest.1, rest.2)

theorem feedAll_append (r : FrameReader) (bytes more : List (UInt8 × Nat)) :
    r.feedAll (bytes ++ more) =
      ((r.feedAll bytes).1 ++ ((r.feedAll bytes).2.feedAll more).1, ((r.feedAll bytes).2.feedAll more).2) := by
  induction bytes generalizing r with
  | nil => rfl
  | cons x bytes ih => rw [List.cons_append, feedAll, ih, feedAll, List.cons_append]

/-- The frames among some answers. -/
def framesOf (answers : List (Except FrameError (Option Frame))) : List Frame :=
  answers.filterMap fun
    | .ok frame? => frame?
    | .error _ => none

/-- Readers that are new, were just reset or have just emitted a frame. -/
inductive Fresh : FrameReader → Prop
  | new : Fresh {}
  | reset (r : FrameReader) : Fresh r.reset
  | emitted {r : FrameReader} {byte : UInt8} {now : Nat} {frame : Frame} :
      (r.feed byte now).1 = .ok (some frame) → Fresh (r.feed byte now).2

theorem Fresh.atRest {r : FrameReader} (h : r.Fresh) : r.phase = .scanning 0 0 := by
  cases h with
  | new => rfl
  | reset r => rfl
  | @emitted r byte now frame hfeed =>
    have hcase := feedCase r byte now
    generalize (r.feed byte now).1 = answer at hcase hfeed
    generalize (r.feed byte now).2 = after at hcase ⊢
    subst hfeed
    cases hcase with
    | completed _ _ _ _ => rfl

/-! ## Noise -/

/-- Bytes that complete no preamble are passed over; the last two are remembered. -/
theorem feedAll_quiet : ∀ {r : FrameReader} {older newer : UInt8} {bytes : List (UInt8 × Nat)},
    r.phase = .scanning older newer → ¬ preamble <:+: older :: newer :: bytes.map Prod.fst →
    (r.feedAll bytes).1 = List.replicate bytes.length (.ok none) ∧
      ∃ before older' newer', older :: newer :: bytes.map Prod.fst = before ++ [older', newer'] ∧
        (r.feedAll bytes).2.phase = .scanning older' newer'
  | r, older, newer, [], hphase, _ => ⟨rfl, [], older, newer, rfl, hphase⟩
  | r, older, newer, x :: bytes, hphase, hquiet => by
    rw [List.map_cons] at hquiet
    have hscan : scan older newer x.1 = .scanning newer x.1 := by
      rw [scan, if_neg]
      intro hpreamble
      exact hquiet (hpreamble ▸ ((List.prefix_append [older, newer, x.1] (bytes.map Prod.fst)).isInfix))
    have hfeed := feed_scanning hphase x.1 x.2
    rw [hscan] at hfeed
    have hrest : ¬ preamble <:+: newer :: x.1 :: bytes.map Prod.fst :=
      fun h => hquiet (List.infix_cons_iff.mpr (.inr h))
    have hnext : (r.feed x.1 x.2).2.phase = .scanning newer x.1 := by rw [hfeed]
    obtain ⟨hanswers, before, older', newer', hlast, hafter⟩ := feedAll_quiet hnext hrest
    refine ⟨?_, older :: before, older', newer', ?_, hafter⟩
    · rw [feedAll, hanswers, hfeed, List.length_cons, List.replicate_succ]
    · rw [List.map_cons, hlast, List.cons_append]

/-- What comes before a preamble does not become part of one: two zeros in front and the first two bytes behind keep
noise quiet. -/
theorem quiet_opening {bytes : List UInt8} (h : ¬ preamble <:+: bytes) :
    ¬ preamble <:+: 0 :: 0 :: (bytes ++ [0x55, 0x01]) := by
  intro hall
  have hbehind : preamble <:+: bytes ++ [0x55, 0x01] := by
    rcases List.infix_cons_iff.mp hall with hfront | hall
    · exact absurd (List.cons_prefix_cons.mp hfront).1 (by decide)
    · rcases List.infix_cons_iff.mp hall with hfront | hall
      · exact absurd (List.cons_prefix_cons.mp hfront).1 (by decide)
      · exact hall
  rw [show bytes ++ [0x55, 0x01] = bytes ++ [0x55] ++ [0x01] by simp] at hbehind
  have hlast : ∀ {b : UInt8} {l : List UInt8}, b ≠ 0 → preamble <:+: l ++ [b] → preamble <:+: l := by
    intro b l hb hinfix
    rcases List.infix_concat_iff.mp hinfix with hend | hinfix
    · have hzero := hend.getLast (by simp [preamble])
      simp [preamble] at hzero
      exact absurd hzero.symm hb
    · exact hinfix
  exact h (hlast (by decide) (hlast (by decide) hbehind))

/-! ## Frames -/

/-- A marked frame is taken byte by byte and emitted on its last one. -/
theorem feedAll_receiving {frame : Frame} (hheaders : HeadersFit frame.bytes) : ∀ {r : FrameReader}
    {taken : List UInt8} {bytes : List (UInt8 × Nat)}, r.phase = .receiving taken →
    taken ++ bytes.map Prod.fst = frame.bytes → bytes ≠ [] →
    (∀ x ∈ bytes.head?, x.2 ≤ r.lastByte + frameTimeout) → bytes.IsChain Prompt →
    (r.feedAll bytes).1 = List.replicate (bytes.length - 1) (.ok none) ++ [.ok (some frame)] ∧
      (r.feedAll bytes).2.phase = .scanning 0 0
  | r, taken, x :: bytes, hphase, hbytes, _, hfirst, hprompt => by
    have hpause : x.2 ≤ r.lastByte + frameTimeout := hfirst x rfl
    have hheader : headerFits taken.length x.1 = true := by
      apply hheaders
      rw [← hbytes, List.getElem?_append_right (Nat.le_refl _), Nat.sub_self]
      rfl
    have hlength : taken.length + (bytes.length + 1) = 19 := by
      rw [← frame.length_bytes, ← hbytes, List.length_append, List.length_map, List.length_cons]
    cases bytes with
    | nil =>
      have hfeed := feed_completed hphase hpause hheader hbytes.symm
      rw [feedAll, hfeed]
      exact ⟨rfl, rfl⟩
    | cons y bytes =>
      have hpart : taken.length ≠ 18 := by
        rw [List.length_cons] at hlength
        omega
      have hfeed := feed_stored hphase hpause hheader hpart
      obtain ⟨hnext, hrest⟩ := List.isChain_cons_cons.mp hprompt
      have hbytes' : taken ++ [x.1] ++ (y :: bytes).map Prod.fst = frame.bytes := by
        rw [← hbytes, List.append_assoc]
        rfl
      have hfirst' : ∀ z ∈ (y :: bytes).head?, z.2 ≤ (r.feed x.1 x.2).2.lastByte + frameTimeout := by
        rintro z ⟨⟩
        rw [lastByte_feed]
        exact hnext
      have hphase' : (r.feed x.1 x.2).2.phase = .receiving (taken ++ [x.1]) := by rw [hfeed]
      obtain ⟨hanswers, hafter⟩ := feedAll_receiving hheaders hphase' hbytes' (by simp) hfirst' hrest
      refine ⟨?_, hafter⟩
      rw [feedAll, hanswers, hfeed]
      rfl

/-- A marked frame begins with the preamble, and has sixteen bytes behind it. -/
theorem exists_bytes_eq {frame : Frame} (hmarked : frame.Marked) :
    ∃ rest, frame.bytes = 0x55 :: 0x01 :: 0x00 :: rest ∧ rest.length = 16 := by
  refine ⟨frame.bytes.drop 3, ?_, by rw [List.length_drop, frame.length_bytes]⟩
  have hsplit := List.take_append_drop 3 frame.bytes
  rw [hmarked.opening] at hsplit
  exact hsplit.symm

/-- Behind the first two bytes of the preamble, the rest of a marked frame is emitted on its last byte. -/
theorem feedAll_opened {r : FrameReader} (hphase : r.phase = .scanning 0x55 0x01) {frame : Frame}
    (hmarked : frame.Marked) {bytes : List (UInt8 × Nat)}
    (hspells : 0x55 :: 0x01 :: bytes.map Prod.fst = frame.bytes) (hprompt : bytes.IsChain Prompt) :
    (r.feedAll bytes).1 = List.replicate 16 (.ok none) ++ [.ok (some frame)] ∧
      (r.feedAll bytes).2.phase = .scanning 0 0 := by
  obtain ⟨rest, hbytes, hlength⟩ := exists_bytes_eq hmarked
  rw [hbytes, List.cons_inj_right, List.cons_inj_right, List.map_eq_cons_iff] at hspells
  obtain ⟨c, bytes, rfl, hc, rfl⟩ := hspells
  rw [List.length_map] at hlength
  -- the last byte of the preamble opens the frame
  have hopen : r.feed c.1 c.2 = (.ok none, ⟨.receiving preamble, c.2⟩) := by
    rw [feed_scanning hphase, hc]
    rfl
  have hheaders : HeadersFit frame.bytes := (headersFit_iff frame).mpr ⟨hmarked.first, hmarked.second⟩
  have hnonempty : bytes ≠ [] := List.ne_nil_of_length_eq_add_one hlength
  obtain ⟨hfirst, hprompt⟩ := List.isChain_cons.mp hprompt
  obtain ⟨hanswers, hafter⟩ := feedAll_receiving hheaders (r := ⟨.receiving preamble, c.2⟩) rfl hbytes.symm hnonempty
    hfirst hprompt
  rw [feedAll, hopen]
  refine ⟨?_, hafter⟩
  rw [hanswers, hlength]
  rfl

/-! ## Segments -/

/-- Noise without a preamble, at any times, and then a frame whose bytes come in time. -/
structure Segment where
  noise : List (UInt8 × Nat)
  quiet : ¬ preamble <:+: noise.map Prod.fst
  frame : Frame
  framed : List (UInt8 × Nat)
  spells : framed.map Prod.fst = frame.bytes
  prompt : framed.IsChain Prompt

namespace Segment

def bytes (s : Segment) : List (UInt8 × Nat) := s.noise ++ s.framed

/-- The frame on its last byte, and nothing on any byte before it. -/
def answers (s : Segment) : List (Except FrameError (Option Frame)) :=
  List.replicate (s.noise.length + 18) (.ok none) ++ [.ok (some s.frame)]

theorem framesOf_answers (segments : List Segment) :
    framesOf (segments.flatMap answers) = segments.map (·.frame) := by
  have hquiet : ∀ n, framesOf (List.replicate n (.ok none)) = [] := by
    intro n
    induction n with
    | zero => rfl
    | succ n ih => exact ih
  induction segments with
  | nil => rfl
  | cons s segments ih =>
    rw [List.flatMap_cons, framesOf, List.filterMap_append, answers, List.filterMap_append]
    exact congrArg₂ (· ++ [s.frame] ++ ·) (hquiet _) ih

end Segment

/-- A reader at rest reads a segment and is at rest again. -/
theorem feedAll_segment {r : FrameReader} (hrest : r.phase = .scanning 0 0) {s : Segment} (hmarked : s.frame.Marked) :
    (r.feedAll s.bytes).1 = s.answers ∧ (r.feedAll s.bytes).2.phase = .scanning 0 0 := by
  obtain ⟨rest, hbytes, -⟩ := exists_bytes_eq hmarked
  obtain ⟨a, bytes, hframed, ha, hspells⟩ := List.map_eq_cons_iff.mp (s.spells.trans hbytes)
  obtain ⟨b, bytes, rfl, hb, hspells⟩ := List.map_eq_cons_iff.mp hspells
  have hsplit : s.bytes = (s.noise ++ [a, b]) ++ bytes := by
    rw [Segment.bytes, hframed, List.append_assoc]
    rfl
  -- the noise and the first two bytes of the preamble
  have hmap : (s.noise ++ [a, b]).map Prod.fst = s.noise.map Prod.fst ++ [0x55, 0x01] := by
    rw [List.map_append, List.map_cons, List.map_cons, ha, hb]
    rfl
  obtain ⟨hquiet, before, older, newer, hlast, hphase⟩ := feedAll_quiet hrest (hmap ▸ quiet_opening s.quiet)
  rw [hmap, ← List.cons_append, ← List.cons_append] at hlast
  obtain ⟨rfl, rfl⟩ : (0x55 : UInt8) = older ∧ (0x01 : UInt8) = newer := by
    simpa using (List.append_inj' hlast rfl).2
  -- the rest of the frame
  have hprompt : (a :: b :: bytes).IsChain Prompt := hframed ▸ s.prompt
  have hframe : 0x55 :: 0x01 :: bytes.map Prod.fst = s.frame.bytes := by rw [hspells, hbytes]
  obtain ⟨hanswers, hafter⟩ := feedAll_opened hphase hmarked hframe hprompt.tail.tail
  rw [hsplit, feedAll_append]
  refine ⟨?_, hafter⟩
  rw [hquiet, hanswers, Segment.answers, List.length_append, ← List.append_assoc, List.replicate_append_replicate]
  rfl

/-- A reader at rest reads a row of segments. -/
theorem feedAll_segments {r : FrameReader} (hrest : r.phase = .scanning 0 0) {segments : List Segment}
    (hmarked : ∀ s ∈ segments, s.frame.Marked) :
    (r.feedAll (segments.flatMap Segment.bytes)).1 = segments.flatMap Segment.answers := by
  induction segments generalizing r with
  | nil => rfl
  | cons s segments ih =>
    obtain ⟨hmarkeds, hmarked⟩ := List.forall_mem_cons.mp hmarked
    obtain ⟨hanswers, hafter⟩ := feedAll_segment hrest hmarkeds
    rw [List.flatMap_cons, feedAll_append, hanswers, ih hafter hmarked, List.flatMap_cons]

/-! ## Clean streams -/

/-- The frame of a message is marked. -/
theorem marked_of_encode {m : Message} {frame : Frame} (h : m.encode = .ok frame) : frame.Marked := by
  obtain ⟨-, hword⟩ := (Message.encode_eq_ok_iff m frame).mp h
  exact Frame.marked_of_decode (Word.decode_encode hword)

/-- The messages read from some frames, given the messages that the frames were made of. -/
theorem map_decode_of_map_encode {segments : List Segment} {messages : List Message}
    (h : messages.map Message.encode = segments.map fun s => .ok s.frame) :
    segments.map (Message.decode ·.frame) = messages.map fun m =>
      .ok ⟨.ofParts m.packet.command m.packet.payload, m.rolling, m.remoteId⟩ := by
  induction messages generalizing segments with
  | nil =>
    obtain rfl : segments = [] := List.map_eq_nil_iff.mp h.symm
    rfl
  | cons m messages ih =>
    obtain ⟨s, segments, rfl, hm, hmessages⟩ := List.map_eq_cons_iff.mp h.symm
    rw [List.map_cons, List.map_cons, Message.decode_encode hm.symm, ih hmessages.symm]

/-- **No frame of a clean stream is lost.**  A new reader, or one that was just reset or has just emitted a frame, answers
a row of segments with their frames, each on its last byte, and with nothing else, no error among it.  If the frames are
those of some messages, then the frames read decode to the same ids and counters and to the packets that the opcodes and
payloads stand for; these are the messages themselves, unless a raw packet spells a typed one. -/
theorem clean_stream_read {r : FrameReader} (hr : r.Fresh) (segments : List Segment) :
    let answers := (r.feedAll (segments.flatMap Segment.bytes)).1
    ((∀ s ∈ segments, s.frame.Marked) →
      answers = segments.flatMap Segment.answers ∧ framesOf answers = segments.map (·.frame)) ∧
    ∀ messages : List Message, messages.map Message.encode = segments.map (fun s => .ok s.frame) →
      answers = segments.flatMap Segment.answers ∧
      (framesOf answers).map Message.decode = messages.map (fun m =>
        .ok ⟨.ofParts m.packet.command m.packet.payload, m.rolling, m.remoteId⟩) ∧
      ((∀ m ∈ messages, m.packet.IsUnknown → (Packet.ofParts m.packet.command m.packet.payload).IsUnknown) →
        (framesOf answers).map Message.decode = messages.map .ok) := by
  intro answers
  have hread : (∀ s ∈ segments, s.frame.Marked) →
      answers = segments.flatMap Segment.answers ∧ framesOf answers = segments.map (·.frame) := by
    intro hmarked
    have hanswers : answers = segments.flatMap Segment.answers := feedAll_segments hr.atRest hmarked
    exact ⟨hanswers, hanswers ▸ Segment.framesOf_answers segments⟩
  refine ⟨hread, fun messages hencode => ?_⟩
  have hmarked : ∀ s ∈ segments, s.frame.Marked := by
    intro s hs
    have hmem : .ok s.frame ∈ messages.map Message.encode := hencode ▸ List.mem_map_of_mem hs
    obtain ⟨m, -, hm⟩ := List.mem_map.mp hmem
    exact marked_of_encode hm
  obtain ⟨hanswers, hframes⟩ := hread hmarked
  have hdecode : (framesOf answers).map Message.decode = messages.map fun m =>
      .ok ⟨.ofParts m.packet.command m.packet.payload, m.rolling, m.remoteId⟩ := by
    rw [hframes, List.map_map]
    exact map_decode_of_map_encode hencode
  refine ⟨hanswers, hdecode, fun hraw => hdecode.trans (List.map_congr_left fun m hm => ?_)⟩
  have hmem : m.encode ∈ segments.map fun s => .ok s.frame := hencode ▸ List.mem_map_of_mem hm
  obtain ⟨s, -, hs⟩ := List.mem_map.mp hmem
  have hfits : Message.Fits m.packet := ((Message.encode_eq_ok_iff m s.frame).mp hs.symm).1
  rw [Message.ofParts_eq_self hfits (hraw m hm)]

/-- The frame of a pressed door button, 100 ms from byte to byte, behind noise that ends in part of a preamble. -/
def buttonSegment : Segment where
  noise := [(0x00, 7), (0x55, 0), (0x01, 500)]
  quiet := by decide
  frame := ⟨[0x55, 0x01, 0x00, 0x28, 0xa9, 0x34, 0xd8, 0x5f, 0xa6, 0x92, 0x6a, 0x54, 0x57, 0x23, 0x7a, 0x14, 0x8d, 0x34,
    0x83], rfl⟩
  framed := [(0x55, 900), (0x01, 1000), (0x00, 1100), (0x28, 1200), (0xa9, 1300), (0x34, 1400), (0xd8, 1500),
    (0x5f, 1600), (0xa6, 1700), (0x92, 1800), (0x6a, 1900), (0x54, 2000), (0x57, 2100), (0x23, 2200), (0x7a, 2300),
    (0x14, 2400), (0x8d, 2500), (0x34, 2600), (0x83, 2700)]
  spells := rfl
  prompt := by simp [Prompt, frameTimeout]

/-- The frame of a packet with an opcode of its own, its bytes at one instant and with nothing before them. -/
def openingsSegment : Segment where
  noise := []
  quiet := by decide
  frame := ⟨[0x55, 0x01, 0x00, 0x19, 0x65, 0xb6, 0x1b, 0x77, 0xb2, 0x5b, 0x2c, 0x54, 0x57, 0x07, 0x78, 0x15, 0xcc, 0x3d,
    0x83], rfl⟩
  framed := [(0x55, 9000), (0x01, 9000), (0x00, 9000), (0x19, 9000), (0x65, 9000), (0xb6, 9000), (0x1b, 9000),
    (0x77, 9000), (0xb2, 9000), (0x5b, 9000), (0x2c, 9000), (0x54, 9000), (0x57, 9000), (0x07, 9000), (0x78, 9000),
    (0x15, 9000), (0xcc, 9000), (0x3d, 9000), (0x83, 9000)]
  spells := rfl
  prompt := by simp [Prompt]

/-- Both messages are read from a reader that was reset inside a frame. -/
theorem clean_stream_read_two :
    let r : FrameReader := (⟨.receiving [0x55, 0x01, 0x00, 0x19], 400⟩ : FrameReader).reset
    let messages : List Message := [⟨.doorAction .toggle true 1, 10, 0x333539⟩, ⟨.unknown 0x48c 0x200, 11, 0x333539⟩]
    (∀ m ∈ messages, m.packet.IsUnknown → (Packet.ofParts m.packet.command m.packet.payload).IsUnknown) ∧
      messages.map Message.encode = [.ok buttonSegment.frame, .ok openingsSegment.frame] ∧
      (framesOf (r.feedAll (buttonSegment.bytes ++ openingsSegment.bytes)).1).map Message.decode = messages.map .ok := by
  intro r messages
  have hraw : ∀ m ∈ messages, m.packet.IsUnknown → (Packet.ofParts m.packet.command m.packet.payload).IsUnknown := by
    rw [List.forall_mem_cons, List.forall_mem_singleton]
    exact ⟨False.elim, fun _ => trivial⟩
  have hencode : messages.map Message.encode = [.ok buttonSegment.frame, .ok openingsSegment.frame] := by decide +kernel
  obtain ⟨-, hread⟩ := clean_stream_read (.reset _) [buttonSegment, openingsSegment]
  obtain ⟨-, -, hself⟩ := hread messages hencode
  exact ⟨hraw, hencode, hself hraw⟩

/-- The frame of a raw packet that spells a closed door. -/
def rawStatusFrame : Frame :=
  ⟨[0x55, 0x01, 0x00, 0x26, 0x42, 0x41, 0x04, 0x09, 0x40, 0x24, 0x02, 0x64, 0x27, 0x0b, 0xf2, 0xb3, 0x39, 0x0d, 0x97],
    rfl⟩

/-- The frame of a raw packet that spells a status is read from a new reader, and decodes to the status. -/
theorem raw_status_read_as_typed :
    Message.encode ⟨.unknown 0x081 0x200, 100, 0x333539⟩ = .ok rawStatusFrame ∧
      framesOf (({} : FrameReader).feedAll (rawStatusFrame.bytes.map (·, 0))).1 = [rawStatusFrame] ∧
      Message.decode rawStatusFrame = .ok ⟨.status ⟨.closed, false, false, false, false⟩, 100, 0x333539⟩ ∧
      Message.decode rawStatusFrame ≠ .ok ⟨.unknown 0x081 0x200, 100, 0x333539⟩ := by
  decide +kernel

end FrameReader

end DoorBridge
