import BattleRoyale.ChaseSimulation

/-!
# What a chase tick can change

A tick moves players and eliminates some of them. Everything else stays, and an
eliminated player was alive and edible for somebody who was alive.
-/

namespace BattleRoyale

variable {F : Type}

/-- The effect of hunters on the state: nothing but positions and eliminations, and
every elimination has a hunter of the type that eats the victim. -/
structure Chased (s t : ServerState F) : Prop where
  /-- Only the player table changes. -/
  table : t = { s with players := t.players }
  /-- Only the position and the survival of a player change. -/
  player : ∀ i, ∃ alive x y, t.players i = { s.players i with alive := alive, x := x, y := y }
  /-- Nobody comes back. -/
  alive_of : ∀ i, (t.players i).alive = true → (s.players i).alive = true
  /-- An eliminated player was edible. -/
  eaten : ∀ i, (s.players i).alive = true → (t.players i).alive = false →
    (s.players i).isAlive = true ∧ ∃ j, (s.players j).isAlive = true ∧
      canEat (s.players j).choice (s.players i).choice = true

/-- Nobody eats its own type. -/
theorem not_canEat_self (c : Char) : canEat c c = false := by
  unfold canEat
  split
  · rename_i h; subst h; rfl
  · split
    · rename_i h; subst h; rfl
    · split
      · rename_i h; subst h; rfl
      · rfl

theorem Chased.refl (s : ServerState F) : Chased s s where
  table := rfl
  player i := ⟨_, _, _, rfl⟩
  alive_of _ h := h
  eaten i h h' := by simp [h] at h'

/-- Players that a chase leaves alive were alive. -/
theorem Chased.isAlive_of {s t : ServerState F} (h : Chased s t) {i : Slot}
    (hi : (t.players i).isAlive = true) : (s.players i).isAlive = true := by
  obtain ⟨alive, x, y, hp⟩ := h.player i
  have halive := h.alive_of i
  rw [hp] at hi halive
  simp only [Player.isAlive, Bool.and_eq_true] at hi ⊢
  exact ⟨hi.1, halive hi.2⟩

/-- A chase keeps the choices. -/
theorem Chased.choice_eq {s t : ServerState F} (h : Chased s t) (i : Slot) :
    (t.players i).choice = (s.players i).choice := by
  obtain ⟨alive, x, y, hp⟩ := h.player i
  rw [hp]

theorem Chased.trans {s t u : ServerState F} (h : Chased s t) (h' : Chased t u) :
    Chased s u where
  table := by
    have htable := h.table
    rw [h'.table, htable]
  player i := by
    obtain ⟨_, _, _, hp⟩ := h.player i
    obtain ⟨alive, x, y, hq⟩ := h'.player i
    exact ⟨alive, x, y, by rw [hq, hp]⟩
  alive_of i hi := h.alive_of i (h'.alive_of i hi)
  eaten i hi hu := by
    cases ht : (t.players i).alive with
    | false => exact h.eaten i hi ht
    | true =>
      obtain ⟨hvictim, j, hj, heat⟩ := h'.eaten i ht hu
      rw [h.choice_eq, h.choice_eq] at heat
      exact ⟨h.isAlive_of hvictim, j, h.isAlive_of hj, heat⟩

variable [CFloat F]

/-- The prey that the scan has found so far is alive and edible. -/
theorem considerPrey_some {s : ServerState F} {hunter i prey : Slot} {d : F}
    {best : Option (Slot × F)}
    (hbest : ∀ q e, best = some (q, e) → (s.players q).isAlive = true ∧
      canEat (s.players hunter).choice (s.players q).choice = true)
    (h : considerPrey s hunter best i = some (prey, d)) :
    (s.players prey).isAlive = true ∧
      canEat (s.players hunter).choice (s.players prey).choice = true := by
  unfold considerPrey at h
  simp only at h
  split at h
  · exact hbest _ _ h
  · rename_i halive
    split at h
    · exact hbest _ _ h
    · split at h
      · exact hbest _ _ h
      · split at h
        · exact hbest _ _ h
        · rename_i heat
          have hi : (s.players i).isAlive = true ∧
              canEat (s.players hunter).choice (s.players i).choice = true := by
            simpa using And.intro halive heat
          split at h
          · simp only [Option.some.injEq, Prod.mk.injEq] at h
            rw [← h.1]
            exact hi
          · split at h
            · simp only [Option.some.injEq, Prod.mk.injEq] at h
              rw [← h.1]
              exact hi
            · exact hbest _ _ h

/-- A nearest prey is alive and edible, and its hunter is alive. -/
theorem findNearestPrey_some {s : ServerState F} {hunter prey : Slot}
    (h : findNearestPrey s hunter = some prey) :
    (s.players hunter).isAlive = true ∧ (s.players prey).isAlive = true ∧
      canEat (s.players hunter).choice (s.players prey).choice = true := by
  unfold findNearestPrey at h
  split at h
  · cases h
  · rename_i halive
    simp only [Option.map_eq_some_iff, Prod.exists] at h
    obtain ⟨prey', d, hfold, rfl⟩ := h
    refine ⟨by simpa using halive, ?_⟩
    -- The scan keeps a candidate that is alive and edible.
    have hscan : ∀ (is : List Slot) (best : Option (Slot × F)),
        (∀ q e, best = some (q, e) → (s.players q).isAlive = true ∧
          canEat (s.players hunter).choice (s.players q).choice = true) →
        ∀ q e, is.foldl (considerPrey s hunter) best = some (q, e) →
          (s.players q).isAlive = true ∧
            canEat (s.players hunter).choice (s.players q).choice = true := by
      intro is
      induction is with
      | nil => exact fun best hbest => hbest
      | cons i is ih =>
        intro best hbest
        exact ih _ (fun q e => considerPrey_some hbest)
    exact hscan slots none (by simp) _ _ hfold

/-- A capture eliminates an edible player. -/
theorem capture_chased {s : ServerState F} (hunter : Slot) {prey : Slot}
    (hhunter : (s.players hunter).isAlive = true) (hprey : (s.players prey).isAlive = true)
    (heat : canEat (s.players hunter).choice (s.players prey).choice = true) :
    Chased s (capture s prey) where
  table := rfl
  player i := by
    by_cases hi : i = prey
    · subst hi
      exact ⟨_, _, _, ServerState.setPlayer_self ..⟩
    · exact ⟨_, _, _, by rw [capture, ServerState.setPlayer_of_ne _ _ hi]⟩
  alive_of i h := by
    by_cases hi : i = prey
    · subst hi
      simp [capture] at h
    · rwa [capture, ServerState.setPlayer_of_ne _ _ hi] at h
  eaten i h h' := by
    by_cases hi : i = prey
    · subst hi
      exact ⟨hprey, hunter, hhunter, heat⟩
    · rw [capture, ServerState.setPlayer_of_ne _ _ hi, h] at h'
      cases h'

/-- A move changes a position. -/
theorem approach_chased (s : ServerState F) (hunter : Slot) (dx dy dist dt : F) :
    Chased s (approach s hunter dx dy dist dt) where
  table := rfl
  player i := by
    by_cases hi : i = hunter
    · subst hi
      exact ⟨_, _, _, ServerState.setPlayer_self ..⟩
    · exact ⟨_, _, _, by rw [approach, ServerState.setPlayer_of_ne _ _ hi]⟩
  alive_of i h := by
    by_cases hi : i = hunter
    · subst hi
      simpa [approach] using h
    · rwa [approach, ServerState.setPlayer_of_ne _ _ hi] at h
  eaten i h h' := by
    by_cases hi : i = hunter
    · subst hi
      simp [approach, h] at h'
    · rw [approach, ServerState.setPlayer_of_ne _ _ hi, h] at h'
      cases h'

/-- The survivors of a move. -/
theorem approach_isAlive (s : ServerState F) (hunter i : Slot) (dx dy dist dt : F) :
    ((approach s hunter dx dy dist dt).players i).isAlive = (s.players i).isAlive := by
  by_cases hi : i = hunter
  · subst hi
    simp [approach, Player.isAlive]
  · rw [approach, ServerState.setPlayer_of_ne _ _ hi]

/-- The turn of one hunter. -/
theorem hunt_chased (dt : F) (s : ServerState F) (i : Slot) : Chased s (hunt dt s i) := by
  unfold hunt
  split
  · exact Chased.refl s
  · cases hprey : findNearestPrey s i with
    | none => exact Chased.refl s
    | some prey =>
      obtain ⟨hhunter, halive, heat⟩ := findNearestPrey_some hprey
      simp only
      split
      · exact capture_chased i hhunter halive heat
      · have hmove := approach_chased s i (CFloat.sub (s.players prey).x (s.players i).x)
          (CFloat.sub (s.players prey).y (s.players i).y)
          (distance (CFloat.sub (s.players prey).x (s.players i).x)
            (CFloat.sub (s.players prey).y (s.players i).y)) dt
        split
        · refine hmove.trans (capture_chased i ?_ ?_ ?_)
          · rw [approach_isAlive]
            exact hhunter
          · rw [approach_isAlive]
            exact halive
          · rw [hmove.choice_eq, hmove.choice_eq]
            exact heat
        · exact hmove

/-- A whole tick: the turns of all hunters, one after another. -/
theorem simulateChaseTick_chased (s : ServerState F) (dt : F) :
    Chased s (simulateChaseTick s dt).1 := by
  have hturns : ∀ (dt : F) (is : List Slot) (t : ServerState F),
      Chased s t → Chased s (is.foldl (hunt dt) t) := by
    intro dt is
    induction is with
    | nil => exact fun t h => h
    | cons i is ih => exact fun t h => ih _ (h.trans (hunt_chased dt t i))
  simp only [simulateChaseTick]
  exact hturns _ slots s (Chased.refl s)

end BattleRoyale
