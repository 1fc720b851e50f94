import RemotePlay.Lib.Ranking
import Mathlib.Algebra.Order.Field.Rat
import Mathlib.Tactic.NormNum

/-!
# Routing

`RankRoutes` sorts the scores of the routes, each with the id of its route, and
`SelectBestRoute` goes back from the id of the first score to a route, the first
one that has it. Where two routes share an id that need not be the one that the
score is of: `selectBestRoute_best_iff` says when it makes no difference. Floats
are exact rationals where a score is computed, and else of any type.
-/

namespace RemotePlay.AI

open Lib

structure RouteCandidate (F : Type) where
  id : String
  ip : String
  port : UInt16
  measuredLatencyMs : F
  packetLoss : F
  regionalLoad : Int
  stabilityTrend : F

structure RouteScore (S : Type) where
  id : String
  score : S
  deriving DecidableEq

namespace IntelligentRouter

/-- `RouteCandidate{}`. -/
def noRoute {F : Type} [Zero F] : RouteCandidate F := ⟨"", "", 0, 0, 0, 0, 0⟩

/-- `CalculateScore` with the weights and operations of the source on exact rationals: a `float`
score is off by what its operations round. -/
def calculateScore (c : RouteCandidate ℚ) : ℚ :=
  let latScore := max 0 (1 - c.measuredLatencyMs / 250)
  let lossScore := max 0 (1 - c.packetLoss / (15 / 100))
  let stabilityScore := 1 - c.regionalLoad / 100
  let trendScore := max 0 (min 1 (1 / 2 + c.stabilityTrend * (1 / 2)))
  latScore * (1 / 2) + lossScore * (3 / 10) + stabilityScore * (1 / 10) + trendScore * (1 / 10)

section
variable {F S : Type} [LinearOrder S] (calculateScore : RouteCandidate F → S)
  (sort : List (RouteScore S) → List (RouteScore S))

def scores (candidates : List (RouteCandidate F)) : List (RouteScore S) :=
  candidates.map fun c => ⟨c.id, calculateScore c⟩

/-- `sort` is `std::sort` by descending score. -/
def rankRoutes (candidates : List (RouteCandidate F)) : List (RouteScore S) :=
  sort (scores calculateScore candidates)

/-- The first route with the id. -/
def firstWithId (candidates : List (RouteCandidate F)) (id : String) : Option (RouteCandidate F) :=
  candidates.find? (·.id = id)

def selectBestRoute [Zero F] : List (RouteCandidate F) → RouteCandidate F
  | [] => noRoute
  | first :: rest =>
    let bestId := (rankRoutes calculateScore sort (first :: rest)).head?.map (·.id)
    (bestId.bind (firstWithId (first :: rest))).getD first

/-- `c` is one of the routes, and none has a higher score. -/
def IsBest (candidates : List (RouteCandidate F)) (c : RouteCandidate F) : Prop :=
  IsTop calculateScore candidates c

/-- A sort as `std::sort` may be. -/
def SortsScores : Prop := SortsDown (fun s : RouteScore S => s.score) sort

/-- For every best route, the first one with its id is as good. -/
def IdsKeepBest (candidates : List (RouteCandidate F)) : Prop :=
  ∀ c, IsBest calculateScore candidates c →
    ∀ c', firstWithId candidates c.id = some c' → IsBest calculateScore candidates c'

end

/-! ## The route that is returned -/

section
variable {F S : Type} [LinearOrder S] {calculateScore : RouteCandidate F → S}
  {sort : List (RouteScore S) → List (RouteScore S)} {candidates : List (RouteCandidate F)}

theorem isTop_scores {s : RouteScore S} :
    IsTop (fun s : RouteScore S => s.score) (scores calculateScore candidates) s ↔
      ∃ c, IsBest calculateScore candidates c ∧ ⟨c.id, calculateScore c⟩ = s :=
  isTop_map

theorem exists_firstWithId {c : RouteCandidate F} (hc : c ∈ candidates) :
    ∃ c', firstWithId candidates c.id = some c' := by
  have hsome : (firstWithId candidates c.id).isSome = true :=
    List.find?_isSome.mpr ⟨c, hc, decide_eq_true rfl⟩
  exact Option.isSome_iff_exists.mp hsome

theorem mem_of_firstWithId {id : String} {c : RouteCandidate F}
    (h : firstWithId candidates id = some c) : c ∈ candidates ∧ c.id = id := by
  have hid := List.find?_some h
  exact ⟨List.mem_of_find?_eq_some h, of_decide_eq_true hid⟩

omit [LinearOrder S] in
theorem selectBestRoute_of_head [Zero F] {s : RouteScore S} {c : RouteCandidate F}
    (hs : (sort (scores calculateScore candidates)).head? = some s)
    (hc : firstWithId candidates s.id = some c) :
    selectBestRoute calculateScore sort candidates = c := by
  cases candidates with
  | nil => cases hc
  | cons first rest =>
    simp only [selectBestRoute, rankRoutes, hs, Option.map_some, Option.bind_some, hc,
      Option.getD_some]

/-- The route with the score, for a score that comes first. -/
def BestWithId (calculateScore : RouteCandidate F → S) (candidates : List (RouteCandidate F))
    (s : RouteScore S) : Prop :=
  ∀ c, firstWithId candidates s.id = some c → IsBest calculateScore candidates c

/-- With one sort, the score that comes first decides. -/
theorem isBest_selectBestRoute_iff [Zero F] (hsort : SortsScores sort) (hne : candidates ≠ []) :
    IsBest calculateScore candidates (selectBestRoute calculateScore sort candidates) ↔
      ∀ s, (sort (scores calculateScore candidates)).head? = some s →
        BestWithId calculateScore candidates s := by
  have hscores : scores calculateScore candidates ≠ [] := fun h => hne (List.map_eq_nil_iff.mp h)
  obtain ⟨s, hs⟩ := hsort.exists_head hscores
  obtain ⟨c, hbest, rfl⟩ := isTop_scores.mp (hsort.isTop_head hs)
  obtain ⟨c', hc'⟩ := exists_firstWithId hbest.1
  rw [selectBestRoute_of_head hs hc']
  constructor
  · intro h s' hs' c'' hc''
    obtain rfl := Option.some.inj (hs.symm.trans hs')
    obtain rfl := Option.some.inj (hc'.symm.trans hc'')
    exact h
  · intro h
    exact h _ hs c' hc'

theorem isBest_selectBestRoute [Zero F] (hsort : SortsScores sort) (hne : candidates ≠ [])
    (h : IdsKeepBest calculateScore candidates) :
    IsBest calculateScore candidates (selectBestRoute calculateScore sort candidates) := by
  refine (isBest_selectBestRoute_iff hsort hne).mpr fun s hs c' hc' => ?_
  obtain ⟨c, hbest, rfl⟩ := isTop_scores.mp (hsort.isTop_head hs)
  exact h c hbest c' hc'

/-- **The route that is returned is a best one**, however equal scores are sorted, just when for
every best route the first one with its id is as good. -/
theorem selectBestRoute_best_iff [Zero F] (calculateScore : RouteCandidate F → S)
    (first : RouteCandidate F) (rest : List (RouteCandidate F)) :
    (∀ sort, SortsScores sort →
      IsBest calculateScore (first :: rest) (selectBestRoute calculateScore sort (first :: rest))) ↔
      IdsKeepBest calculateScore (first :: rest) := by
  have hne : first :: rest ≠ [] := List.cons_ne_nil first rest
  constructor
  · intro h c hbest
    -- The score of a best route comes first with some sort.
    have hhead := (forall_sortsDown_head_iff (fun s : RouteScore S => s.score)).mp
      fun sort hsort => (isBest_selectBestRoute_iff hsort hne).mp (h sort hsort)
    exact hhead ⟨c.id, calculateScore c⟩ (isTop_scores.mpr ⟨c, hbest, rfl⟩)
  · intro h sort hsort
    exact isBest_selectBestRoute hsort hne h

/-- No two routes share an id. -/
theorem idsKeepBest_of_nodup (h : (candidates.map (·.id)).Nodup) :
    IdsKeepBest calculateScore candidates := by
  intro c hbest c' hc'
  obtain ⟨hmem, hid⟩ := mem_of_firstWithId hc'
  have hsame : c' = c := List.inj_on_of_nodup_map h hmem hbest.1 hid
  rwa [hsame]

/-- Routes that share an id have one score. -/
theorem idsKeepBest_of_score
    (h : ∀ c ∈ candidates, ∀ c' ∈ candidates, c.id = c'.id →
      calculateScore c = calculateScore c') : IdsKeepBest calculateScore candidates := by
  intro c hbest c' hc'
  obtain ⟨hmem, hid⟩ := mem_of_firstWithId hc'
  refine ⟨hmem, fun d hd => ?_⟩
  rw [h c' hmem c hbest.1 hid]
  exact hbest.2 d hd

end

def slowRoute : RouteCandidate ℚ := ⟨"192.0.2.1", "192.0.2.1", 5005, 200, 0, 0, 0⟩

def fastRoute : RouteCandidate ℚ := ⟨"192.0.2.1", "192.0.2.1", 5006, 20, 0, 0, 0⟩

/-- Of two routes through one address the second one is never returned. -/
theorem fastRoute_missed (sort : List (RouteScore ℚ) → List (RouteScore ℚ))
    (hsort : SortsScores sort) :
    selectBestRoute calculateScore sort [slowRoute, fastRoute] = slowRoute ∧
      ¬ IsBest calculateScore [slowRoute, fastRoute]
        (selectBestRoute calculateScore sort [slowRoute, fastRoute]) := by
  have hne : scores calculateScore [slowRoute, fastRoute] ≠ [] := List.cons_ne_nil _ _
  obtain ⟨s, hs⟩ := hsort.exists_head hne
  obtain ⟨c, hbest, rfl⟩ := isTop_scores.mp (hsort.isTop_head hs)
  have hid : c.id = slowRoute.id := by
    rcases List.mem_pair.mp hbest.1 with rfl | rfl
    · rfl
    · rfl
  have hreturned : selectBestRoute calculateScore sort [slowRoute, fastRoute] = slowRoute := by
    refine selectBestRoute_of_head hs ?_
    rw [hid]
    rfl
  refine ⟨hreturned, fun h => ?_⟩
  rw [hreturned] at h
  have hle := h.2 fastRoute (by simp)
  norm_num [calculateScore, slowRoute, fastRoute] at hle

/-- Two routes through one address, of which the second is the faster. -/
theorem shared_id_slow :
    ¬ ∀ sort, SortsScores sort → IsBest calculateScore [slowRoute, fastRoute]
      (selectBestRoute calculateScore sort [slowRoute, fastRoute]) := by
  intro h
  have hsort := sortsDown_sortDown fun s : RouteScore ℚ => s.score
  exact (fastRoute_missed _ hsort).2 (h _ hsort)

/-! ## The routes of a client -/

structure ConnectivityCandidate where
  ip : String
  port : UInt16

/-- A candidate is taken to have a latency of 100 ms and a loss of 0.01. -/
def probe (cand : ConnectivityCandidate) : RouteCandidate ℚ :=
  ⟨cand.ip, cand.ip, cand.port, 100, 1 / 100, 0, 0⟩

/-- The routes that `runClient` evaluates with its feedback: the one it is on, and its own
candidates under other addresses. -/
def clientRoutes (currentHostIp : String) (currentHostPort : UInt16) (rtt lossRate : ℚ)
    (clientCandidates : List ConnectivityCandidate) : List (RouteCandidate ℚ) :=
  ⟨"current", currentHostIp, currentHostPort, rtt, lossRate, 0, 0⟩ ::
    (clientCandidates.filter (·.ip ≠ currentHostIp)).map probe

/-- There the ids do no harm: routes through one address have one score. -/
theorem selectBestRoute_clientRoutes {currentHostIp : String} (currentHostPort : UInt16)
    (rtt lossRate : ℚ) {clientCandidates : List ConnectivityCandidate}
    (h : ∀ cand ∈ clientCandidates, cand.ip ≠ "current")
    {sort : List (RouteScore ℚ) → List (RouteScore ℚ)} (hsort : SortsScores sort) :
    IsBest calculateScore
      (clientRoutes currentHostIp currentHostPort rtt lossRate clientCandidates)
      (selectBestRoute calculateScore sort
        (clientRoutes currentHostIp currentHostPort rtt lossRate clientCandidates)) := by
  refine isBest_selectBestRoute hsort (List.cons_ne_nil _ _) (idsKeepBest_of_score ?_)
  have hprobe : ∀ c ∈ (clientCandidates.filter (·.ip ≠ currentHostIp)).map probe,
      c.id ≠ "current" ∧ calculateScore c = calculateScore (probe ⟨"", 0⟩) := by
    intro c hc
    obtain ⟨cand, hcand, rfl⟩ := List.mem_map.mp hc
    exact ⟨h cand (List.mem_of_mem_filter hcand), rfl⟩
  intro c hc c' hc' hid
  rcases List.mem_cons.mp hc with rfl | hc
  · rcases List.mem_cons.mp hc' with rfl | hc'
    · rfl
    · exact absurd hid.symm (hprobe c' hc').1
  · rcases List.mem_cons.mp hc' with rfl | hc'
    · exact absurd hid (hprobe c hc).1
    · exact (hprobe c hc).2.trans (hprobe c' hc').2.symm

/-- The new path is better by more than the threshold. -/
def shouldSwitchRoute (current better : RouteCandidate ℚ) (threshold : ℚ) : Bool :=
  calculateScore current + threshold < calculateScore better

end IntelligentRouter

end RemotePlay.AI
