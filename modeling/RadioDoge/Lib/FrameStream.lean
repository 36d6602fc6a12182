/-
# Frames in a stream of reads

A reader appends what each read delivers to a buffer and, after every read, asks
whether the buffer as a whole is complete; a complete buffer is delivered and
emptied. The reader never looks for a frame inside the buffer. `run_eq_iff` says
what that comes to: the frames of a stream are delivered as they are exactly when
the end of every frame is the end of a read.
-/

import Mathlib.Tactic
import Mathlib.Data.List.Basic

universe u

namespace FrameStream

variable {α : Type u}

/-- One read. -/
def feed (complete : List α → Bool) (buffer chunk : List α) : List α × List (List α) :=
  if complete (buffer ++ chunk) then ([], [buffer ++ chunk]) else (buffer ++ chunk, [])

/-- A sequence of reads, with everything delivered, oldest first. -/
def run (complete : List α → Bool) (buffer : List α) : List (List α) → List α × List (List α)
  | [] => (buffer, [])
  | chunk :: rest =>
      let first := feed complete buffer chunk
      let later := run complete first.1 rest
      (later.1, first.2 ++ later.2)

/-- No read takes the buffer past `capacity`. -/
def Fits (complete : List α → Bool) (capacity : Nat) (buffer : List α) : List (List α) → Prop
  | [] => True
  | chunk :: rest =>
      (buffer ++ chunk).length ≤ capacity ∧
        Fits complete capacity (feed complete buffer chunk).1 rest

/-- A frame is complete, and nothing before its end is. -/
def IsFrame (complete : List α → Bool) (frame : List α) : Prop :=
  complete frame = true ∧ ∀ part, part <+: frame → part ≠ frame → complete part = false

/-- The end of every frame is the end of a read, with `buffer` read before. -/
def EndsAtReads (buffer : List α) (frames reads : List (List α)) : Prop :=
  ∀ i, 0 < i → i ≤ frames.length →
    ∃ j, buffer ++ (reads.take j).flatten = (frames.take i).flatten

variable {complete : List α → Bool}

theorem run_cons (buffer chunk : List α) (rest : List (List α)) :
    run complete buffer (chunk :: rest) =
      ((run complete (feed complete buffer chunk).1 rest).1,
        (feed complete buffer chunk).2 ++ (run complete (feed complete buffer chunk).1 rest).2) :=
  rfl

/-- Whatever is delivered ends at a read. -/
theorem endsAtReads_run (reads : List (List α)) :
    ∀ buffer, EndsAtReads buffer (run complete buffer reads).2 reads := by
  induction reads with
  | nil =>
      intro buffer i hpos hi
      exact absurd hi (Nat.not_le_of_lt hpos)
  | cons chunk rest ih =>
      intro buffer i hpos hi
      by_cases hdone : complete (buffer ++ chunk) = true
      · have hfeed : feed complete buffer chunk = ([], [buffer ++ chunk]) := if_pos hdone
        rw [run_cons, hfeed] at hi ⊢
        obtain ⟨i, rfl⟩ : ∃ i', i = i' + 1 := ⟨i - 1, by omega⟩
        cases i with
        | zero => exact ⟨1, by simp⟩
        | succ i =>
            obtain ⟨j, hj⟩ := ih [] (i + 1) (Nat.succ_pos i) (by simpa using hi)
            refine ⟨j + 1, ?_⟩
            rw [List.take_succ_cons, List.flatten_cons, List.singleton_append, List.take_succ_cons,
              List.flatten_cons, ← hj, List.nil_append, List.append_assoc]
      · have hfeed : feed complete buffer chunk = (buffer ++ chunk, []) := if_neg hdone
        rw [run_cons, hfeed] at hi ⊢
        obtain ⟨j, hj⟩ := ih (buffer ++ chunk) i hpos (by simpa using hi)
        refine ⟨j + 1, ?_⟩
        rw [List.take_succ_cons, List.flatten_cons, List.nil_append, ← hj, List.append_assoc]

/-- What a reader in the middle of the first frame knows. -/
structure Midway (complete : List α → Bool) (buffer : List α) (frames reads : List (List α)) :
    Prop where
  frames_ok : ∀ frame ∈ frames, IsFrame complete frame
  stream : buffer ++ reads.flatten = frames.flatten
  ends : EndsAtReads buffer frames reads
  inside : ∀ frame ∈ frames.head?, buffer <+: frame ∧ buffer ≠ frame

namespace Midway

variable {buffer chunk : List α} {frames rest : List (List α)}

/-- Before any read a reader stands in front of the first frame. -/
theorem start (hempty : complete [] = false) {reads : List (List α)}
    (hframes : ∀ frame ∈ frames, IsFrame complete frame) (hstream : reads.flatten = frames.flatten)
    (hends : EndsAtReads [] frames reads) : Midway complete [] frames reads where
  frames_ok := hframes
  stream := hstream
  ends := hends
  inside frame hhead := by
    have hdone : complete frame = true := (hframes frame (List.mem_of_mem_head? hhead)).1
    have hnil : [] <+: frame := List.nil_prefix
    refine ⟨hnil, fun heq => ?_⟩
    rw [← heq, hempty] at hdone
    cases hdone

/-- A stretch of the stream that ends at or after the first frame is more than the
reader has read. -/
theorem ne_append {frame tail : List α} {frames : List (List α)}
    (h : Midway complete buffer (frame :: frames) rest) : buffer ≠ frame ++ tail := by
  intro heq
  obtain ⟨hfront, hne⟩ := h.inside frame rfl
  have hlength : buffer.length ≤ frame.length := hfront.length_le
  rw [heq, List.length_append] at hlength
  have htail : tail = [] := List.eq_nil_of_length_eq_zero (by omega)
  rw [htail, List.append_nil] at heq
  exact hne heq

/-- The end of the first `i + 1` frames lies after the next read or at its end. -/
theorem ends_later {frame : List α} {frames : List (List α)}
    (h : Midway complete buffer (frame :: frames) (chunk :: rest)) {i : Nat}
    (hi : i ≤ frames.length) :
    ∃ j, (buffer ++ chunk) ++ (rest.take j).flatten = frame ++ (frames.take i).flatten := by
  obtain ⟨j, hj⟩ := h.ends (i + 1) (Nat.succ_pos i) (Nat.succ_le_succ hi)
  rw [List.take_succ_cons, List.flatten_cons] at hj
  cases j with
  | zero =>
      rw [List.take_zero, List.flatten_nil, List.append_nil] at hj
      exact absurd hj h.ne_append
  | succ j =>
      refine ⟨j, ?_⟩
      rw [← hj, List.take_succ_cons, List.flatten_cons, List.append_assoc]

/-- The next read stays inside the first frame. -/
theorem append_within {frame : List α} {frames : List (List α)}
    (h : Midway complete buffer (frame :: frames) (chunk :: rest)) : buffer ++ chunk <+: frame := by
  obtain ⟨j, hj⟩ := h.ends_later (Nat.zero_le _)
  rw [List.take_zero, List.flatten_nil, List.append_nil] at hj
  exact ⟨_, hj⟩

/-- Behind the last frame nothing is held and nothing more arrives. -/
theorem nothing (h : Midway complete buffer [] (chunk :: rest)) : buffer ++ chunk = [] := by
  have hstream := h.stream
  rw [List.flatten_cons, ← List.append_assoc] at hstream
  exact (List.append_eq_nil_iff.mp hstream).1

/-- A read that completes the first frame leaves the reader in front of the next. -/
theorem feed_done {frame : List α} {frames : List (List α)}
    (h : Midway complete buffer (frame :: frames) (chunk :: rest)) (hempty : complete [] = false)
    (hframe : buffer ++ chunk = frame) : Midway complete [] frames rest := by
  refine start hempty (fun other hmem => h.frames_ok other (List.mem_cons_of_mem _ hmem)) ?_ ?_
  · have hstream := h.stream
    rw [List.flatten_cons, List.flatten_cons, ← List.append_assoc, hframe] at hstream
    exact List.append_cancel_left hstream
  · intro i _ hi
    obtain ⟨j, hj⟩ := h.ends_later hi
    rw [hframe] at hj
    exact ⟨j, List.append_cancel_left hj⟩

/-- A read that completes nothing leaves the reader in the same frame. -/
theorem feed_more (h : Midway complete buffer frames (chunk :: rest))
    (hopen : complete (buffer ++ chunk) = false) :
    Midway complete (buffer ++ chunk) frames rest where
  frames_ok := h.frames_ok
  stream := by
    rw [List.append_assoc]
    exact h.stream
  ends i hpos hi := by
    cases frames with
    | nil => exact absurd hi (Nat.not_le_of_lt hpos)
    | cons frame frames =>
        obtain ⟨i, rfl⟩ : ∃ i', i = i' + 1 := ⟨i - 1, by omega⟩
        exact h.ends_later (Nat.le_of_succ_le_succ hi)
  inside frame hhead := by
    cases frames with
    | nil => cases hhead
    | cons first frames =>
        obtain rfl : first = frame := Option.some.inj hhead
        refine ⟨h.append_within, fun heq => ?_⟩
        rw [heq, (h.frames_ok _ List.mem_cons_self).1] at hopen
        cases hopen

/-- One read delivers the first frame or nothing, and the reader goes on from
there. -/
theorem feed_spec (h : Midway complete buffer frames (chunk :: rest))
    (hempty : complete [] = false) :
    ∃ later, frames = (feed complete buffer chunk).2 ++ later ∧
      Midway complete (feed complete buffer chunk).1 later rest := by
  cases hdone : complete (buffer ++ chunk) with
  | false =>
      have hfeed : feed complete buffer chunk = (buffer ++ chunk, []) := by
        rw [feed, hdone]
        rfl
      rw [hfeed]
      exact ⟨frames, rfl, h.feed_more hdone⟩
  | true =>
      have hfeed : feed complete buffer chunk = ([], [buffer ++ chunk]) := if_pos hdone
      rw [hfeed]
      cases frames with
      | nil =>
          rw [h.nothing, hempty] at hdone
          cases hdone
      | cons frame frames =>
          -- before its end a frame is not complete, so this is the end
          have hframe : buffer ++ chunk = frame := by
            by_contra hne
            rw [(h.frames_ok frame List.mem_cons_self).2 _ h.append_within hne] at hdone
            cases hdone
          refine ⟨frames, ?_, h.feed_done hempty hframe⟩
          rw [hframe]
          rfl

/-- The frames that are left are delivered. -/
theorem delivers (hempty : complete [] = false) (reads : List (List α)) :
    ∀ {buffer : List α} {frames : List (List α)}, Midway complete buffer frames reads →
      (run complete buffer reads).2 = frames := by
  induction reads with
  | nil =>
      intro buffer frames h
      cases frames with
      | nil => rfl
      | cons frame frames =>
          obtain ⟨j, hj⟩ := h.ends 1 Nat.one_pos (Nat.succ_le_succ (Nat.zero_le _))
          rw [List.take_nil, List.flatten_nil, List.append_nil] at hj
          exact absurd hj h.ne_append
  | cons chunk rest ih =>
      intro buffer frames h
      obtain ⟨later, hframes, hlater⟩ := h.feed_spec hempty
      rw [run_cons, hframes, ih hlater]

/-- The reader never holds more than the longest frame. -/
theorem fits (hempty : complete [] = false) {capacity : Nat} (reads : List (List α)) :
    ∀ {buffer : List α} {frames : List (List α)}, Midway complete buffer frames reads →
      (∀ frame ∈ frames, frame.length ≤ capacity) → Fits complete capacity buffer reads := by
  induction reads with
  | nil =>
      intro _ _ _ _
      trivial
  | cons chunk rest ih =>
      intro buffer frames h hshort
      obtain ⟨later, hframes, hlater⟩ := h.feed_spec hempty
      have hrest : ∀ frame ∈ later, frame.length ≤ capacity := fun frame hmem =>
        hshort frame (hframes ▸ List.mem_append_right _ hmem)
      refine ⟨?_, ih hlater hrest⟩
      cases frames with
      | nil =>
          rw [h.nothing]
          exact Nat.zero_le capacity
      | cons frame frames =>
          exact h.append_within.length_le.trans (hshort frame List.mem_cons_self)

end Midway

/-- The frames of a stream are delivered as they are, within the room the longest of
them needs, exactly when every frame ends where a read ends. -/
theorem run_eq_iff (hempty : complete [] = false) {capacity : Nat} {frames reads : List (List α)}
    (hframes : ∀ frame ∈ frames, IsFrame complete frame)
    (hshort : ∀ frame ∈ frames, frame.length ≤ capacity)
    (hstream : reads.flatten = frames.flatten) :
    (run complete [] reads).2 = frames ∧ Fits complete capacity [] reads ↔
      EndsAtReads [] frames reads := by
  constructor
  · rintro ⟨hrun, -⟩
    rw [← hrun]
    exact endsAtReads_run reads []
  · intro hends
    have hstart := Midway.start hempty hframes hstream hends
    exact ⟨Midway.delivers hempty reads hstart, Midway.fits hempty reads hstart hshort⟩

end FrameStream
