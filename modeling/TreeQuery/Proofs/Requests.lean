import Mathlib.Data.List.Induction
import TreeQuery.Proofs.Remembering

/-!
# Requests to a memory

A memory is asked for the values of keys and, in between, to forget what it holds. Whatever it is
asked, it answers as the function it remembers, and the requests alone tell what it holds.

* `Memo.Request`, `Memo.after`, `Memo.results`: requests one after another;
* `latest?`: the latest request since the memory was last emptied that had a value;
* `Served`, `Served.get`, `Served.clear`: what requests leave behind, kept by one more of them;
* `logged`: a computation that keeps a list of its runs;
* `requests_served`: results, slot and counts of every run, and what one more request does.
-/

namespace TreeQuery.Memo

inductive Request (κ : Type)
  | get (key : κ)
  | clear

section Requests

variable {κ ν ε : Type} {compute : κ → Except ε ν} {requests : List (Request κ)} {key : κ}
  {value : ν}

/-- The key whose value is asked for. -/
def Request.key? : Request κ → Option κ
  | .get key => some key
  | .clear => none

/-- The keys whose values are asked for. -/
def asked (requests : List (Request κ)) : List κ := requests.filterMap Request.key?

/-- The keys asked for since the memory was last emptied, the latest first. -/
def sinceClear (requests : List (Request κ)) : List κ :=
  asked (requests.reverse.takeWhile (·.key?.isSome))

/-- The latest of these keys that has a value, with the value. -/
def latest? (compute : κ → Except ε ν) (requests : List (Request κ)) : Option (κ × ν) :=
  (sinceClear requests).findSome? fun key => (compute key).toOption.map (key, ·)

theorem asked_get (requests : List (Request κ)) (key : κ) :
    asked (requests ++ [.get key]) = asked requests ++ [key] := List.filterMap_append

theorem length_asked_get (requests : List (Request κ)) (key : κ) :
    (asked (requests ++ [.get key])).length = (asked requests).length + 1 := by
  rw [asked_get, List.length_append, List.length_singleton]

theorem asked_clear (requests : List (Request κ)) :
    asked (requests ++ [.clear]) = asked requests := by
  simp [asked, Request.key?]

theorem sinceClear_get (requests : List (Request κ)) (key : κ) :
    sinceClear (requests ++ [.get key]) = key :: sinceClear requests := by
  simp [sinceClear, asked, Request.key?]

theorem latest?_computed (hc : compute key = .ok value) :
    latest? compute (requests ++ [.get key]) = some (key, value) := by
  simp [latest?, sinceClear_get, hc, Except.toOption]

theorem latest?_failed {e : ε} (hc : compute key = .error e) :
    latest? compute (requests ++ [.get key]) = latest? compute requests := by
  simp [latest?, sinceClear_get, hc, Except.toOption]

theorem latest?_clear (compute : κ → Except ε ν) (requests : List (Request κ)) :
    latest? compute (requests ++ [.clear]) = none := by
  simp [latest?, sinceClear, asked, Request.key?]

end Requests

section Runs

variable {κ ν ε : Type} [BEq κ]

/-- The memory after a request. -/
def serve (compute : κ → Except ε ν) (m : Memo κ ν) : Request κ → Memo κ ν
  | .get key => (m.get key compute).2
  | .clear => m.clear

/-- The memory after some requests, one after another. -/
def after (m : Memo κ ν) (compute : κ → Except ε ν) (requests : List (Request κ)) : Memo κ ν :=
  requests.foldl (serve compute) m

/-- What the requests for values are answered. -/
def results (m : Memo κ ν) (compute : κ → Except ε ν) : List (Request κ) → List (Except ε ν)
  | [] => []
  | .get key :: rest => (m.get key compute).1 :: (m.get key compute).2.results compute rest
  | .clear :: rest => m.clear.results compute rest

/-- A computation that notes for which keys it is run. -/
def logged (compute : κ → Except ε ν) (key : κ) : StateM (List κ) (Except ε ν) := do
  modify (· ++ [key])
  return compute key

/-- What some requests leave behind: results of the function in the slot, the latest of them under a
key that compares as equal to its own, and each request for a value counted once. -/
structure Served (compute : κ → Except ε ν) (requests : List (Request κ)) (m : Memo κ ν) :
    Prop where
  holds : m.Holds compute
  slot : Option.Rel (fun entry latest => (entry.1 == latest.1) = true ∧ entry.2 = latest.2)
    m.slot (latest? compute requests)
  counted : m.Counts (asked requests).length

variable {compute : κ → Except ε ν} {m : Memo κ ν} {requests : List (Request κ)} {key : κ}
  {value : ν}

/-! ## One more request -/

theorem empty_served : (empty : Memo κ ν).Served compute [] := ⟨empty_holds, .none, empty_counts⟩

theorem Served.get [ReflBEq κ] (h : Served compute requests m) (respects : Respects compute)
    (key : κ) : Served compute (requests ++ [.get key]) (m.get key compute).2 := by
  cases hfind : m.find? key with
  | some value =>
    obtain ⟨held, hslot, heq⟩ := find?_eq_some_iff.mp hfind
    rw [get_found hfind]
    refine ⟨h.holds, ?_, length_asked_get requests key ▸ h.counted.hit⟩
    rw [latest?_computed (h.holds.found respects hfind)]
    exact hslot ▸ .some ⟨heq, rfl⟩
  | none =>
    cases hc : compute key with
    | ok value =>
      rw [get_computed hfind hc]
      refine ⟨store_holds hc, ?_, length_asked_get requests key ▸ h.counted.miss.store key value⟩
      rw [latest?_computed hc]
      exact .some ⟨BEq.rfl, rfl⟩
    | error e =>
      -- what was held before the failure is still held
      rw [get_failed hfind hc]
      refine ⟨h.holds, ?_, length_asked_get requests key ▸ h.counted.miss⟩
      rw [latest?_failed hc]
      exact h.slot

theorem Served.clear (h : Served compute requests m) :
    Served compute (requests ++ [.clear]) m.clear where
  holds := nofun
  slot := by
    rw [latest?_clear]
    exact .none
  counted := by
    rw [asked_clear]
    exact h.counted.clear

/-- The key held compares like the one whose value came last. -/
theorem Served.any_slot [EquivBEq κ] (h : Served compute requests m) (key : κ) :
    m.slot.any (·.1 == key) = (latest? compute requests).any (·.1 == key) := by
  have hrel := h.slot
  generalize m.slot = slot, latest? compute requests = latest at hrel
  cases hrel with
  | none => rfl
  | some hentry => exact BEq.congr_left hentry.1

theorem Served.slot_eq [LawfulBEq κ] (h : Served compute requests m) :
    m.slot = latest? compute requests := by
  have hrel := h.slot
  generalize m.slot = slot, latest? compute requests = latest at hrel
  cases hrel with
  | none => rfl
  | some hentry => rw [Prod.ext (eq_of_beq hentry.1) hentry.2]

/-! ## Runs of requests -/

theorem after_served [ReflBEq κ] (respects : Respects compute) (requests : List (Request κ)) :
    Served compute requests ((empty : Memo κ ν).after compute requests) := by
  induction requests using List.reverseRecOn with
  | nil => exact empty_served
  | append_singleton requests request ih =>
    rw [after, List.foldl_append]
    cases request with
    | get key => exact ih.get respects key
    | clear => exact ih.clear

theorem Holds.results_eq (h : m.Holds compute) (respects : Respects compute) :
    m.results compute requests = (asked requests).map compute := by
  induction requests generalizing m with
  | nil => rfl
  | cons request requests ih =>
    cases request with
    | get key =>
      obtain ⟨hresult, hholds⟩ := h.get respects key
      rw [results, hresult, ih hholds]
      rfl
    | clear => exact ih nofun

/-! ## Runs of the computation -/

theorem getM_logged_found (h : m.find? key = some value) (log : List κ) :
    (m.getM key (logged compute)).run log = (m.get key compute, log) := by
  rw [get_found h]
  simp only [getM, look, h]
  rfl

theorem getM_logged_missed (h : m.find? key = none) (log : List κ) :
    (m.getM key (logged compute)).run log = (m.get key compute, log ++ [key]) := by
  cases hc : compute key with
  | ok value =>
    rw [get_computed h hc]
    simp only [getM, look, h, logged, hc]
    rfl
  | error e =>
    rw [get_failed h hc]
    simp only [getM, look, h, logged, hc]
    rfl

theorem counts_found (h : m.find? key = some value) :
    (m.get key compute).2.hits = m.hits + 1 ∧ (m.get key compute).2.misses = m.misses := by
  rw [get_found h]
  exact ⟨rfl, rfl⟩

theorem counts_missed (h : m.find? key = none) :
    (m.get key compute).2.hits = m.hits ∧ (m.get key compute).2.misses = m.misses + 1 := by
  cases hc : compute key with
  | ok value =>
    rw [get_computed h hc]
    exact ⟨rfl, rfl⟩
  | error e =>
    rw [get_failed h hc]
    exact ⟨rfl, rfl⟩

/-- **A memory serves requests as the function would.** Every request for a value is answered with
the result for its key, be it a value or a failure. The slot holds the latest value since it was
last emptied, under a key that compares as equal to that of its request, and nothing if there is
none, so that failures do not change it. Every request for a value is counted, in words that start
over, and emptying the slot changes no count. One more request is a hit if its key compares as equal
to the one held, and the function is not run; otherwise it is a miss, and the function is run once,
for that key. -/
theorem requests_served [EquivBEq κ] {compute : κ → Except ε ν} (respects : Respects compute)
    (requests : List (Request κ)) :
    (empty : Memo κ ν).results compute requests = (asked requests).map compute ∧
    ∃ m, (empty : Memo κ ν).after compute requests = m ∧
      Option.Rel (fun entry latest => (entry.1 == latest.1) = true ∧ entry.2 = latest.2)
        m.slot (latest? compute requests) ∧
      (LawfulBEq κ → m.slot = latest? compute requests) ∧
      m.hits + m.misses = .ofNat (asked requests).length ∧
      ((asked requests).length < UInt64.size →
        m.hits.toNat + m.misses.toNat = (asked requests).length) ∧
      (m.clear.hits = m.hits ∧ m.clear.misses = m.misses) ∧
      ∀ key log, (m.get key compute).1 = compute key ∧
        if (latest? compute requests).any (·.1 == key) then
          (m.getM key (logged compute)).run log = (m.get key compute, log) ∧
          (m.get key compute).2.hits = m.hits + 1 ∧ (m.get key compute).2.misses = m.misses
        else
          (m.getM key (logged compute)).run log = (m.get key compute, log ++ [key]) ∧
          (m.get key compute).2.hits = m.hits ∧ (m.get key compute).2.misses = m.misses + 1 := by
  have served := after_served (ν := ν) respects requests
  refine ⟨empty_holds.results_eq respects, _, rfl, served.slot, fun _ => served.slot_eq,
    served.counted.word, served.counted.value, ⟨rfl, rfl⟩, ?_⟩
  intro key log
  refine ⟨(served.holds.get respects key).1, ?_⟩
  rw [← served.any_slot key, ← isSome_find?]
  cases hfind : ((empty : Memo κ ν).after compute requests).find? key with
  | some value => exact ⟨getM_logged_found hfind log, counts_found hfind⟩
  | none => exact ⟨getM_logged_missed hfind log, counts_missed hfind⟩

end Runs

/-- The halves of even numbers. -/
def half (n : Nat) : Except String Nat :=
  if n % 2 = 0 then .ok (n / 2) else .error "odd"

/-- A value, a failure for another key, the first key again, and the same without it. -/
def mixed : List (Request Nat) := [.get 4, .get 7, .get 4, .clear, .get 6, .get 9]

theorem mixed_served :
    (empty : Memo Nat Nat).results half mixed =
      [.ok 2, .error "odd", .ok 2, .ok 3, .error "odd"] ∧
    ∃ m, (empty : Memo Nat Nat).after half mixed = m ∧ m.slot = some (6, 3) ∧
      m.hits + m.misses = 5 ∧ m.hits.toNat + m.misses.toNat = 5 ∧
      ((m.getM 6 (logged half)).run [] = (m.get 6 half, []) ∧
        (m.get 6 half).2.hits = m.hits + 1 ∧ (m.get 6 half).2.misses = m.misses) ∧
      (m.getM 9 (logged half)).run [] = (m.get 9 half, [9]) ∧
        (m.get 9 half).2.hits = m.hits ∧ (m.get 9 half).2.misses = m.misses + 1 := by
  obtain ⟨hresults, m, hm, -, hslot, hword, hvalue, -, hnext⟩ :=
    requests_served (respects_of_lawful half) mixed
  exact ⟨hresults, m, hm, hslot inferInstance, hword, hvalue (by decide), (hnext 6 []).2,
    (hnext 9 []).2⟩

end TreeQuery.Memo
