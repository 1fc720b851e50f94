import RemotePlay.AI.IntelligentRouter
import RemotePlay.Lib.Run
import Mathlib.Tactic.Linarith

/-!
# Switching the path

With every feedback the client ranks the path that it is on, by what was last
measured, against its own candidates, which it takes to have 100 ms and a loss of
0.01, and switches to one that is better by more than 0.2. A candidate scores 0.73,
so a path is kept as long as it scores 0.53. The events are the feedbacks between
two handshake responses. Floats are exact rationals: a path within rounding of 0.53
may be judged otherwise by the code.
-/

namespace RemotePlay.Client

open Lib AI IntelligentRouter

/-- `currentHostIp` and `currentHostPort`. -/
structure HostPath where
  ip : String
  port : UInt16
  deriving DecidableEq

namespace HostPath

/-- The path as one of the routes. -/
def route (path : HostPath) (rtt lossRate : ℚ) : RouteCandidate ℚ :=
  ⟨"current", path.ip, path.port, rtt, lossRate, 0, 0⟩

def ofRoute (route : RouteCandidate ℚ) : HostPath := ⟨route.ip, route.port⟩

def ofCandidate (cand : ConnectivityCandidate) : HostPath := ⟨cand.ip, cand.port⟩

/-- A round-trip time and a loss rate, the last ones that were recorded. -/
structure Measured where
  rtt : ℚ
  lossRate : ℚ

section
variable (sort : List (RouteScore ℚ) → List (RouteScore ℚ))
  (clientCandidates : List ConnectivityCandidate)

/-- The evaluation before a feedback is sent. -/
def evaluate (path : HostPath) (measured : Measured) : HostPath :=
  let routes :=
    clientRoutes path.ip path.port measured.rtt measured.lossRate clientCandidates
  let best := selectBestRoute calculateScore sort routes
  if best.id ≠ "current" then
    if shouldSwitchRoute (path.route measured.rtt measured.lossRate) best (1 / 5) then ofRoute best
    else path
  else path

/-- There is no other address to go to, or the path scores enough. -/
def Keeps (path : HostPath) (measured : Measured) : Prop :=
  (∀ cand ∈ clientCandidates, cand.ip = path.ip) ∨
    53 / 100 ≤ calculateScore (path.route measured.rtt measured.lossRate)

end

theorem calculateScore_probe (cand : ConnectivityCandidate) :
    calculateScore (probe cand) = 73 / 100 := by
  norm_num [calculateScore, probe]

variable {sort : List (RouteScore ℚ) → List (RouteScore ℚ)}
  {clientCandidates : List ConnectivityCandidate} {path : HostPath} {measured : Measured}

/-- Another route than the current one is a candidate under another address. -/
theorem mem_clientRoutes {c : RouteCandidate ℚ}
    (hc : c ∈ clientRoutes path.ip path.port measured.rtt measured.lossRate clientCandidates) :
    c = path.route measured.rtt measured.lossRate ∨
      ∃ cand ∈ clientCandidates, cand.ip ≠ path.ip ∧ c = probe cand := by
  rcases List.mem_cons.mp hc with hcurrent | hprobe
  · exact Or.inl hcurrent
  · obtain ⟨cand, hcand, rfl⟩ := List.mem_map.mp hprobe
    obtain ⟨hmem, hip⟩ := List.mem_filter.mp hcand
    exact Or.inr ⟨cand, hmem, of_decide_eq_true hip, rfl⟩

/-- The path is kept, or given up for a candidate under another address. -/
theorem evaluate_spec (hids : ∀ cand ∈ clientCandidates, cand.ip ≠ "current")
    (hsort : SortsScores sort) (path : HostPath) (measured : Measured) :
    (Keeps clientCandidates path measured ∧ evaluate sort clientCandidates path measured = path) ∨
      ¬ Keeps clientCandidates path measured ∧ ∃ cand ∈ clientCandidates, cand.ip ≠ path.ip ∧
        evaluate sort clientCandidates path measured = ofCandidate cand := by
  have hbest : IsBest calculateScore
      (clientRoutes path.ip path.port measured.rtt measured.lossRate clientCandidates)
      (selectBestRoute calculateScore sort
        (clientRoutes path.ip path.port measured.rtt measured.lossRate clientCandidates)) :=
    selectBestRoute_clientRoutes path.port measured.rtt measured.lossRate hids hsort
  unfold evaluate
  dsimp only
  generalize selectBestRoute calculateScore sort _ = best at hbest ⊢
  obtain ⟨hmem, hhighest⟩ := hbest
  rcases mem_clientRoutes hmem with rfl | ⟨cand, hcand, hip, rfl⟩
  · -- the path is a best route itself
    left
    refine ⟨?_, if_neg fun h => h rfl⟩
    by_contra hkeeps
    obtain ⟨hother, hlow⟩ := not_or.mp hkeeps
    push Not at hother
    obtain ⟨cand, hcand, hip⟩ := hother
    have hle := hhighest (probe cand) (List.mem_cons_of_mem _ (List.mem_map_of_mem
      (List.mem_filter.mpr ⟨hcand, decide_eq_true hip⟩)))
    rw [calculateScore_probe] at hle
    linarith
  · have hid : (probe cand).id ≠ "current" := hids cand hcand
    rw [if_pos hid, shouldSwitchRoute, calculateScore_probe]
    by_cases hlow : calculateScore (path.route measured.rtt measured.lossRate) + 1 / 5 < 73 / 100
    · right
      rw [if_pos (decide_eq_true hlow)]
      refine ⟨?_, cand, hcand, hip, rfl⟩
      rintro (hall | hscore)
      · exact hip (hall cand hcand)
      · linarith
    · left
      rw [if_neg (by simpa using hlow)]
      exact ⟨Or.inr (by linarith), rfl⟩

theorem run_among (hids : ∀ cand ∈ clientCandidates, cand.ip ≠ "current")
    (hsort : SortsScores sort) (path : HostPath) (measurements : List Measured) :
    run (evaluate sort clientCandidates) path measurements = path ∨
      ∃ cand ∈ clientCandidates,
        run (evaluate sort clientCandidates) path measurements = ofCandidate cand := by
  have hstep : ∀ s measured, (s = path ∨ ∃ cand ∈ clientCandidates, s = ofCandidate cand) →
      (evaluate sort clientCandidates s measured = path ∨ ∃ cand ∈ clientCandidates,
        evaluate sort clientCandidates s measured = ofCandidate cand) := by
    intro s measured hs
    rcases evaluate_spec hids hsort s measured with ⟨-, heq⟩ | ⟨-, cand, hcand, -, heq⟩
    · rwa [heq]
    · exact Or.inr ⟨cand, hcand, heq⟩
  exact run_invariant' (s := path) hstep (Or.inl rfl) measurements

/-- **A path once given up is not taken again.** Where the host's address is not one of the client's
own candidates, and none of these has the ip "current", the client is on the host's path after any
feedbacks iff it scored enough, in exact arithmetic, at each of them or there was no other address,
and is else on one of its own candidates. -/
theorem path_kept_iff (hids : ∀ cand ∈ clientCandidates, cand.ip ≠ "current")
    (hsort : SortsScores sort) (hpath : ∀ cand ∈ clientCandidates, ofCandidate cand ≠ path)
    (measurements : List Measured) :
    (run (evaluate sort clientCandidates) path measurements = path ↔
        Along (evaluate sort clientCandidates) (Keeps clientCandidates) path measurements) ∧
      (run (evaluate sort clientCandidates) path measurements ≠ path →
        ∃ cand ∈ clientCandidates,
          run (evaluate sort clientCandidates) path measurements = ofCandidate cand) := by
  have hspec := evaluate_spec hids hsort
  have hexact : ∀ s measured, True → s = path →
      (evaluate sort clientCandidates s measured = path ↔ Keeps clientCandidates s measured) := by
    rintro s measured - rfl
    rcases hspec s measured with ⟨hkeeps, heq⟩ | ⟨hnot, cand, hcand, hip, heq⟩
    · exact iff_of_true heq hkeeps
    · exact iff_of_false (heq ▸ hpath cand hcand) hnot
  have hback : ∀ s measured, evaluate sort clientCandidates s measured = path → s = path := by
    intro s measured h
    rcases hspec s measured with ⟨-, heq⟩ | ⟨-, cand, hcand, -, heq⟩
    · exact heq.symm.trans h
    · exact absurd (heq.symm.trans h) (hpath cand hcand)
  constructor
  · have hstep : ∀ s measured, True → Keeps clientCandidates s measured → True :=
      fun _ _ _ _ => trivial
    exact run_iff_along hstep hexact hback trivial rfl measurements
  · intro hne
    exact (run_among hids hsort path measurements).resolve_left hne

/-- A client with one candidate of its own, and a feedback. -/
theorem path_kept_once :
    run (evaluate (sortDown fun s : RouteScore ℚ => s.score) [⟨"192.168.0.2", 0⟩])
        ⟨"198.51.100.7", 5005⟩ [⟨20, 0⟩] = ⟨"198.51.100.7", 5005⟩ := by
  refine (path_kept_iff (by decide) (sortsDown_sortDown _) (by decide) _).1.mpr ?_
  refine ⟨Or.inr ?_, trivial⟩
  norm_num [calculateScore, route]

end HostPath

end RemotePlay.Client
