import BattleRoyale.Library.Framing

/-!
# Streams that have arrived in part

A stream reaches its receiver piece by piece, and at any moment a first part of it has
arrived. What the receiver cuts from that part are the first segments of the whole stream,
and what it has to keep is no longer than a segment.
-/

namespace Framing

variable {α : Type*} [DecidableEq α] {sep : α}

/-- The segments of what has arrived are the first ones of the stream. -/
theorem frames_mono {as bs : List α} (h : as <+: bs) :
    (frames sep as).1 <+: (frames sep bs).1 := by
  obtain ⟨rest, rfl⟩ := h
  rw [frames_append as rest]
  exact List.prefix_append _ _

/-- A separator closes the tail. -/
theorem frames_concat (as : List α) : frames sep (as ++ [sep]) = (segments sep as, []) := by
  have hkeep : sep ∉ (frames sep as).2 := not_mem_tail as
  rw [frames_append as [sep], frames_append_sep hkeep []]
  rfl

/-- A segment is no longer than the stream. -/
theorem length_le_of_mem_segments {as s : List α} (h : s ∈ segments sep as) :
    s.length ≤ as.length := by
  induction as generalizing s with
  | nil =>
    obtain rfl : s = [] := List.mem_singleton.mp h
    exact Nat.le_refl _
  | cons a as ih =>
    by_cases ha : a = sep
    · simp only [segments, frames, if_pos ha, List.cons_append, List.mem_cons] at h
      rcases h with rfl | h
      · exact Nat.zero_le _
      · exact (ih h).trans (Nat.le_succ _)
    · cases hframes : frames sep as with
      | mk fs tail =>
        simp only [segments, hframes] at ih
        cases fs with
        | nil =>
          simp only [segments, frames, if_neg ha, hframes, List.nil_append,
            List.mem_singleton] at h
          subst h
          exact Nat.succ_le_succ (ih (List.mem_append_right _ List.mem_cons_self))
        | cons f fs =>
          simp only [segments, frames, if_neg ha, hframes, List.cons_append, List.mem_cons] at h ih
          rcases h with rfl | h
          · exact Nat.succ_le_succ (ih (.inl rfl))
          · exact (ih (.inr h)).trans (Nat.le_succ _)

/-- The tail of what has arrived is no longer than some segment of the stream. -/
theorem tail_length_le {as bs : List α} (h : as <+: bs) :
    ∃ s ∈ segments sep bs, (frames sep as).2.length ≤ s.length := by
  obtain ⟨rest, rfl⟩ := h
  have hkeep : sep ∉ (frames sep as).2 := not_mem_tail as
  obtain ⟨s, hs, hlength⟩ := exists_segment_of_not_mem hkeep rest
  exact ⟨s, by rw [segments_append]; exact List.mem_append_right _ hs, hlength⟩

/-- Messages without a separator, each closed by one, are cut into themselves. -/
theorem frames_messages {messages : List (List α)} (h : ∀ m ∈ messages, sep ∉ m) :
    frames sep (messages.map (· ++ [sep])).flatten = (messages, []) := by
  induction messages with
  | nil => rfl
  | cons m messages ih =>
    have hrest := ih fun m hm => h m (List.mem_cons_of_mem _ hm)
    rw [List.map_cons, List.flatten_cons, List.append_assoc, List.singleton_append,
      frames_append_sep (h m List.mem_cons_self), hrest]

/-- A stream that ends with a separator, in segments of bounded length. -/
structure Closed (sep : α) (bound : ℕ) (stream : List α) : Prop where
  /-- Nothing is left over. -/
  tail : (frames sep stream).2 = []
  /-- No segment is longer. -/
  length_le : ∀ s ∈ (frames sep stream).1, s.length ≤ bound

variable {bound : ℕ}

/-- The empty stream. -/
theorem Closed.nil : Closed sep bound [] := ⟨rfl, fun _ h => absurd h List.not_mem_nil⟩

/-- One message, whatever it contains. -/
theorem Closed.message {m : List α} (h : m.length ≤ bound) : Closed sep bound (m ++ [sep]) := by
  constructor
  · rw [frames_concat]
  · intro s hs
    rw [frames_concat] at hs
    exact (length_le_of_mem_segments hs).trans h

/-- One stream after another. -/
theorem Closed.append {as bs : List α} (has : Closed sep bound as) (hbs : Closed sep bound bs) :
    Closed sep bound (as ++ bs) := by
  have hframes : frames sep (as ++ bs) =
      ((frames sep as).1 ++ (frames sep bs).1, (frames sep bs).2) := by
    rw [frames_append as bs, has.tail, List.nil_append]
  constructor
  · rw [hframes]
    exact hbs.tail
  · intro s hs
    rw [hframes] at hs
    exact (List.mem_append.mp hs).elim (has.length_le s) (hbs.length_le s)

/-- What the receiver has to keep of a closed stream is bounded. -/
theorem Closed.tail_length_le {as bs : List α} (hbs : Closed sep bound bs) (h : as <+: bs) :
    (frames sep as).2.length ≤ bound := by
  obtain ⟨s, hs, hlength⟩ : ∃ s ∈ segments sep bs, (frames sep as).2.length ≤ s.length :=
    Framing.tail_length_le h
  rcases List.mem_append.mp hs with hs | hs
  · exact hlength.trans (hbs.length_le s hs)
  · rw [List.mem_singleton.mp hs, hbs.tail] at hlength
    exact hlength.trans (Nat.zero_le _)

end Framing
