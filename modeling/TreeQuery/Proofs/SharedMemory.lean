import Mathlib.Logic.Function.Basic
import TreeQuery.Proofs.Requests

/-!
# A memory with many callers

Any number of callers ask one memory for values at the same time. A look-up that finds its key is
counted and copies the value before it gives the lock back. One that does not gives the lock back
first: it is counted, computes and stores its value in steps of their own, and between these other
callers may store theirs or empty the slot.

* `Memo.Stage`, `Memo.Shared`: where a caller stands in its call, and all callers with their memory;
* `Memo.Move`, `Memo.Step`, `Memo.Run`: the atomic steps and their interleavings;
* `Sound`, `step_sound`: all that is held or about to be stored or returned is a result;
* `Tallied`, `step_tallied`: what the moves of a caller have to do with its stage;
* `lone_call`: a call whose steps follow each other is a look-up of the memory;
* `callers_get_their_own`: what holds at every moment of every interleaving.
-/

namespace TreeQuery.Memo

open Function (update)

/-- Where a caller stands in its call. -/
inductive Stage (κ ν ε : Type)
  | idle
  | asking (key : κ)
  /-- Has not found its key, which is not counted yet. -/
  | missed (key : κ)
  | computing (key : κ)
  | storing (key : κ) (value : ν)
  | finished (key : κ) (result : Except ε ν)

/-- One memory and its callers. -/
structure Shared (ι κ ν ε : Type) where
  memo : Memo κ ν
  stage : ι → Stage κ ν ε

inductive Move (ι κ : Type)
  | call (caller : ι) (key : κ)
  | hit (caller : ι)
  | miss (caller : ι)
  | count (caller : ι)
  | compute (caller : ι)
  | store (caller : ι)
  | leave (caller : ι)
  | clear

section Stages

variable {ι κ ν ε : Type}

namespace Move

/-- The caller that moves; the slot is emptied on nobody's account. -/
def caller? : Move ι κ → Option ι
  | .call c _ => some c
  | .hit c => some c
  | .miss c => some c
  | .count c => some c
  | .compute c => some c
  | .store c => some c
  | .leave c => some c
  | .clear => none

/-- The move looks a key up. -/
def looks : Move ι κ → Bool
  | .hit _ => true
  | .miss _ => true
  | _ => false

/-- The move counts a look-up. -/
def counts : Move ι κ → Bool
  | .hit _ => true
  | .count _ => true
  | _ => false

/-- The key of the call that the move begins. -/
def key? : Move ι κ → Option κ
  | .call _ key => some key
  | _ => none

/-- The moves of one caller. -/
def ofCaller [DecidableEq ι] (c : ι) (moves : List (Move ι κ)) : List (Move ι κ) :=
  moves.filter (·.caller? = some c)

theorem ofCaller_append [DecidableEq ι] (c : ι) (moves : List (Move ι κ)) (move : Move ι κ) :
    ofCaller c (moves ++ [move]) =
      if move.caller? = some c then ofCaller c moves ++ [move] else ofCaller c moves := by
  rw [ofCaller, List.filter_append]
  split
  · next h => simp [h, ofCaller]
  · next h => simp [h, ofCaller]

end Move

namespace Stage

def key? : Stage κ ν ε → Option κ
  | .idle => none
  | .asking key => some key
  | .missed key => some key
  | .computing key => some key
  | .storing key _ => some key
  | .finished key _ => some key

/-- How many look-ups of the caller are not counted yet. -/
def uncounted : Stage κ ν ε → Nat
  | .missed _ => 1
  | _ => 0

/-- What the caller is about to store, or to return, is the result for its own key. -/
def Sound (compute : κ → Except ε ν) : Stage κ ν ε → Prop
  | .storing key value => compute key = .ok value
  | .finished key result => result = compute key
  | _ => True

end Stage

/-- Nobody has asked for anything. -/
def Shared.start : Shared ι κ ν ε := ⟨empty, fun _ => .idle⟩

/-- Nothing but results is held, about to be stored, or returned. -/
structure Sound (compute : κ → Except ε ν) (w : Shared ι κ ν ε) : Prop where
  memo : w.memo.Holds compute
  stage : ∀ c, (w.stage c).Sound compute

theorem start_sound {compute : κ → Except ε ν} : Sound compute (.start : Shared ι κ ν ε) :=
  ⟨empty_holds, fun _ => trivial⟩

/-- A stage that fits the moves of its caller: its look-ups are counted, except for the last if that
is due, and it is busy with the key of its last call. -/
structure Tallied (own : List (Move ι κ)) (s : Stage κ ν ε) : Prop where
  counted : own.countP Move.looks = own.countP Move.counts + s.uncounted
  called : ∀ key, s.key? = some key → (own.filterMap Move.key?).getLast? = some key

theorem tallied_nil : Tallied ([] : List (Move ι κ)) (.idle : Stage κ ν ε) := ⟨rfl, nofun⟩

/-- One more move of the caller. -/
theorem Tallied.snoc {own : List (Move ι κ)} {move : Move ι κ} {s s' : Stage κ ν ε}
    (h : Tallied own s)
    (hcount : s.uncounted + [move].countP Move.looks = [move].countP Move.counts + s'.uncounted)
    (hkey : ∀ key, s'.key? = some key → move.key?.or s.key? = some key) :
    Tallied (own ++ [move]) s' where
  counted := by
    have := h.counted
    rw [List.countP_append, List.countP_append]
    omega
  called key hs := by
    have hlast : ([move].filterMap Move.key?).getLast? = move.key? := by
      cases hmove : move.key? <;> simp [hmove]
    rw [List.filterMap_append, List.getLast?_append, hlast]
    have hor := hkey key hs
    cases hmove : move.key? with
    | some called => rwa [hmove] at hor
    | none =>
      rw [hmove] at hor
      exact h.called key hor

end Stages

section Steps

variable {ι κ ν ε : Type} [DecidableEq ι] [BEq κ]

/-- The atomic steps of the callers. Anybody may empty the slot at any time. -/
inductive Step (compute : κ → Except ε ν) :
    Shared ι κ ν ε → Move ι κ → Shared ι κ ν ε → Prop
  | call {w : Shared ι κ ν ε} {c : ι} (key : κ) (h : w.stage c = .idle) :
      Step compute w (.call c key) ⟨w.memo, update w.stage c (.asking key)⟩
  | hit {w : Shared ι κ ν ε} {c : ι} {key : κ} {value : ν} (h : w.stage c = .asking key)
      (found : w.memo.find? key = some value) :
      Step compute w (.hit c) ⟨w.memo.hit, update w.stage c (.finished key (.ok value))⟩
  | miss {w : Shared ι κ ν ε} {c : ι} {key : κ} (h : w.stage c = .asking key)
      (absent : w.memo.find? key = none) :
      Step compute w (.miss c) ⟨w.memo, update w.stage c (.missed key)⟩
  | count {w : Shared ι κ ν ε} {c : ι} {key : κ} (h : w.stage c = .missed key) :
      Step compute w (.count c) ⟨w.memo.miss, update w.stage c (.computing key)⟩
  | succeed {w : Shared ι κ ν ε} {c : ι} {key : κ} {value : ν} (h : w.stage c = .computing key)
      (hc : compute key = .ok value) :
      Step compute w (.compute c) ⟨w.memo, update w.stage c (.storing key value)⟩
  | fail {w : Shared ι κ ν ε} {c : ι} {key : κ} {e : ε} (h : w.stage c = .computing key)
      (hc : compute key = .error e) :
      Step compute w (.compute c) ⟨w.memo, update w.stage c (.finished key (.error e))⟩
  | store {w : Shared ι κ ν ε} {c : ι} {key : κ} {value : ν} (h : w.stage c = .storing key value) :
      Step compute w (.store c)
        ⟨w.memo.store key value, update w.stage c (.finished key (.ok value))⟩
  | leave {w : Shared ι κ ν ε} {c : ι} {key : κ} {result : Except ε ν}
      (h : w.stage c = .finished key result) :
      Step compute w (.leave c) ⟨w.memo, update w.stage c .idle⟩
  | clear {w : Shared ι κ ν ε} : Step compute w .clear ⟨w.memo.clear, w.stage⟩

/-- Moves one after another, in whatever order the callers take them. -/
inductive Run (compute : κ → Except ε ν) :
    Shared ι κ ν ε → List (Move ι κ) → Shared ι κ ν ε → Prop
  | nil {w : Shared ι κ ν ε} : Run compute w [] w
  | snoc {w w' w'' : Shared ι κ ν ε} {moves : List (Move ι κ)} {move : Move ι κ}
      (before : Run compute w moves w') (step : Step compute w' move w'') :
      Run compute w (moves ++ [move]) w''

variable {compute : κ → Except ε ν} {w w' : Shared ι κ ν ε} {moves : List (Move ι κ)}
  {move : Move ι κ} {c : ι}

/-! ## One step -/

theorem step_sound (respects : Respects compute) (h : Step compute w move w')
    (sound : Sound compute w) : Sound compute w' := by
  have stages {s : Stage κ ν ε} (c : ι) (hs : s.Sound compute) :
      ∀ d, (update w.stage c s d).Sound compute :=
    (Function.forall_update_iff w.stage fun _ s => s.Sound compute).mpr
      ⟨hs, fun d _ => sound.stage d⟩
  cases h with
  | call key => exact ⟨sound.memo, stages _ trivial⟩
  | hit _ found => exact ⟨sound.memo, stages _ (sound.memo.found respects found).symm⟩
  | miss => exact ⟨sound.memo, stages _ trivial⟩
  | count => exact ⟨sound.memo, stages _ trivial⟩
  | succeed _ hc => exact ⟨sound.memo, stages _ hc⟩
  | fail _ hc => exact ⟨sound.memo, stages _ hc.symm⟩
  | @store c key value h =>
    -- the value was computed for this very key, whatever the slot has held meanwhile
    have hc : compute key = .ok value := by
      have := sound.stage c
      rwa [h] at this
    exact ⟨store_holds hc, stages _ hc.symm⟩
  | leave => exact ⟨sound.memo, stages _ trivial⟩
  | clear => exact ⟨nofun, sound.stage⟩

/-- A step leaves the other callers where they are. -/
theorem step_others (h : Step compute w move w') (hc : move.caller? ≠ some c) :
    w'.stage c = w.stage c := by
  cases h with
  | clear => rfl
  | call | hit | miss | count | succeed | fail | store | leave =>
    exact Function.update_of_ne (fun heq => hc (congrArg some heq.symm)) _ _

theorem step_tallied_own {own : List (Move ι κ)} (h : Step compute w move w')
    (hc : move.caller? = some c) (tallied : Tallied own (w.stage c)) :
    Tallied (own ++ [move]) (w'.stage c) := by
  cases h with
  | clear => cases hc
  | leave h =>
    obtain rfl := Option.some.inj hc
    rw [h] at tallied
    simp only [Function.update_self]
    exact tallied.snoc rfl nofun
  | call _ h | hit h | miss h | count h | succeed h | fail h | store h =>
    obtain rfl := Option.some.inj hc
    rw [h] at tallied
    simp only [Function.update_self]
    exact tallied.snoc rfl fun _ hkey => hkey

theorem step_tallied (h : Step compute w move w')
    (tallied : ∀ c, Tallied (Move.ofCaller c moves) (w.stage c)) (c : ι) :
    Tallied (Move.ofCaller c (moves ++ [move])) (w'.stage c) := by
  rw [Move.ofCaller_append]
  by_cases hc : move.caller? = some c
  · rw [if_pos hc]
    exact step_tallied_own h hc (tallied c)
  · rw [if_neg hc, step_others h hc]
    exact tallied c

theorem step_counted {n : Nat} (h : Step compute w move w') (counted : w.memo.Counts n) :
    w'.memo.Counts (n + [move].countP Move.counts) := by
  cases h with
  | hit => exact counted.hit
  | count => exact counted.miss
  | store => exact counted.store ..
  | clear => exact counted.clear
  | call | miss | succeed | fail | leave => exact counted

/-! ## Interleavings -/

theorem run_sound (respects : Respects compute) (h : Run compute .start moves w) :
    Sound compute w := by
  induction h with
  | nil => exact start_sound
  | snoc _ step ih => exact step_sound respects step ih

theorem run_tallied (h : Run compute .start moves w) (c : ι) :
    Tallied (Move.ofCaller c moves) (w.stage c) := by
  induction h generalizing c with
  | nil => exact tallied_nil
  | snoc _ step ih => exact step_tallied step ih c

theorem run_counted (h : Run compute .start moves w) :
    w.memo.Counts (moves.countP Move.counts) := by
  induction h with
  | nil => exact empty_counts
  | snoc _ step ih =>
    rw [List.countP_append]
    exact step_counted step ih

/-! ## Calls without interruption -/

/-- One more move of a caller that has moved alone. -/
theorem Run.goOn {m m' : Memo κ ν} {s s' : Stage κ ν ε}
    (before : Run compute w moves ⟨m, update w.stage c s⟩)
    (step : Step compute ⟨m, update w.stage c s⟩ move ⟨m', update (update w.stage c s) c s'⟩) :
    Run compute w (moves ++ [move]) ⟨m', update w.stage c s'⟩ := by
  rw [Function.update_idem] at step
  exact before.snoc step

/-- A call whose steps follow each other does what a look-up of the memory does. -/
theorem lone_call (compute : κ → Except ε ν) (h : w.stage c = .idle) (key : κ) :
    ∃ moves, (∀ move ∈ moves, move.caller? = some c) ∧
      Run compute w moves ⟨(w.memo.get key compute).2,
        update w.stage c (.finished key (w.memo.get key compute).1)⟩ := by
  have asking : Run compute w [.call c key] ⟨w.memo, update w.stage c (.asking key)⟩ :=
    Run.nil.snoc (.call key h)
  cases hfind : w.memo.find? key with
  | some value =>
    have found := asking.goOn (.hit (Function.update_self ..) hfind)
    rw [get_found hfind]
    exact ⟨_, by simp [Move.caller?], found⟩
  | none =>
    have missed := asking.goOn (.miss (Function.update_self ..) hfind)
    have computing := missed.goOn (.count (Function.update_self ..))
    cases hc : compute key with
    | error e =>
      have failed := computing.goOn (.fail (Function.update_self ..) hc)
      rw [get_failed hfind hc]
      exact ⟨_, by simp [Move.caller?], failed⟩
    | ok value =>
      have storing := computing.goOn (.succeed (Function.update_self ..) hc)
      have stored := storing.goOn (.store (Function.update_self ..))
      rw [get_computed hfind hc]
      exact ⟨_, by simp [Move.caller?], stored⟩

/-- **Every caller gets the result for its own key.** Whatever the order of the steps, the slot is
empty or holds a result under its key, and a call that has finished has the result for the key it
was made with. Hits and misses together are the look-ups that have been counted, in words that start
over; of each caller, these are all its look-ups, except for the last while that is due. From any
moment on, a call that the others leave alone comes to its end as a look-up of the memory does. -/
theorem callers_get_their_own (respects : Respects compute) (h : Run compute .start moves w) :
    (w.memo.slot = none ∨
      ∃ key value, w.memo.slot = some (key, value) ∧ compute key = .ok value) ∧
    (∀ c key result, w.stage c = .finished key result → result = compute key ∧
      ((Move.ofCaller c moves).filterMap Move.key?).getLast? = some key) ∧
    w.memo.hits + w.memo.misses = .ofNat (moves.countP Move.counts) ∧
    (moves.countP Move.counts < UInt64.size →
      w.memo.hits.toNat + w.memo.misses.toNat = moves.countP Move.counts) ∧
    (∀ c, (Move.ofCaller c moves).countP Move.looks =
      (Move.ofCaller c moves).countP Move.counts + (w.stage c).uncounted) ∧
    ∀ c key, w.stage c = .idle → ∃ alone, (∀ move ∈ alone, move.caller? = some c) ∧
      Run compute w alone ⟨(w.memo.get key compute).2,
        update w.stage c (.finished key (w.memo.get key compute).1)⟩ := by
  have sound := run_sound respects h
  have tallied := run_tallied h
  have counted := run_counted h
  refine ⟨?_, fun c key result hc => ?_, counted.word, counted.value,
    fun c => (tallied c).counted, fun c key hc => lone_call compute hc key⟩
  · cases hslot : w.memo.slot with
    | none => exact .inl rfl
    | some entry => exact .inr ⟨entry.1, entry.2, rfl, sound.memo _ _ hslot⟩
  · have hresult := sound.stage c
    have hcalled := (tallied c).called key
    rw [hc] at hresult hcalled
    exact ⟨hresult, hcalled rfl⟩

/-- Two callers miss and compute at the same time. Their stores cross, the slot is emptied between
them, a third caller fails, and a fourth finds the value that was stored last. -/
def crossing : List (Move Nat Nat) :=
  [.call 0 4, .call 1 6, .miss 0, .miss 1, .count 1, .count 0, .compute 0, .compute 1, .store 1,
    .clear, .call 2 7, .miss 2, .store 0, .count 2, .compute 2, .call 3 4, .hit 3]

theorem crossing_callers_get_their_own :
    ∃ w, Run half .start crossing w ∧ w.memo.slot = some (4, 2) ∧ half 4 = .ok 2 ∧
      w.stage 0 = .finished 4 (.ok 2) ∧ w.stage 1 = .finished 6 (.ok 3) ∧
      w.stage 2 = .finished 7 (.error "odd") ∧ w.stage 3 = .finished 4 (.ok 2) ∧
      Except.ok 3 = half 6 ∧ w.memo.hits + w.memo.misses = 4 ∧
      w.memo.hits.toNat + w.memo.misses.toNat = 4 := by
  have start : Run half (.start : Shared Nat Nat Nat String) [] .start := .nil
  have missed := start.snoc (.call (c := 0) 4 rfl) |>.snoc (.call (c := 1) 6 rfl)
    |>.snoc (.miss (c := 0) rfl rfl) |>.snoc (.miss (c := 1) rfl rfl)
  have computed := missed.snoc (.count (c := 1) rfl) |>.snoc (.count (c := 0) rfl)
    |>.snoc (.succeed (c := 0) rfl rfl) |>.snoc (.succeed (c := 1) rfl rfl)
  have crossed := computed.snoc (.store (c := 1) rfl) |>.snoc .clear
    |>.snoc (.call (c := 2) 7 rfl) |>.snoc (.miss (c := 2) rfl rfl) |>.snoc (.store (c := 0) rfl)
  have run := crossed.snoc (.count (c := 2) rfl) |>.snoc (.fail (c := 2) rfl rfl)
    |>.snoc (.call (c := 3) 4 rfl) |>.snoc (.hit (c := 3) rfl rfl)
  obtain ⟨-, hown, hword, hvalue, -⟩ := callers_get_their_own (respects_of_lawful half) run
  exact ⟨_, run, rfl, rfl, rfl, rfl, rfl, rfl, (hown 1 6 _ rfl).1, hword, hvalue (by decide)⟩

end Steps

end TreeQuery.Memo
