import DietExchange.Proofs.Cmac.Streaming
import DietExchange.Puzzle.Search
import Mathlib.Algebra.GroupWithZero.Nat
import Mathlib.Data.Nat.Find

/-!
A search that is cut into steps. However a budget is divided, and although one streamed CMAC
serves all candidates, the steps come to what one search over the whole budget comes to: the first
candidate of the random stream that solves the challenge.
-/

namespace DietExchange

namespace PuzzleSearch

/-- Go on with another search where this one found no answer. -/
def Outcome.orElse (outcome : Outcome) (next : PuzzleSearch → RandomStream → Outcome) : Outcome :=
  match outcome.answer with
  | some _ => outcome
  | none => next outcome.search outcome.rng

/-- Steps with these budgets in turn, until one of them finds an answer. -/
def steps : (budgets : List Nat) → PuzzleSearch → RandomStream → Outcome
  | [], search, rng => ⟨none, search, rng⟩
  | budget :: budgets, search, rng => (search.step budget rng).orElse (steps budgets)

/-- The search after `count` more candidates. -/
def tried (search : PuzzleSearch) (count : Nat) : PuzzleSearch :=
  { search with attempts := search.attempts + count }

/-- Whether a search under this key stops at a candidate. -/
def accepts (key : CmacKey) (search : PuzzleSearch) (candidate : Block) : Bool :=
  hasLeadingZeros search.k.toNat
    (answerMac key search.initiator search.responder candidate).toList

section Run

variable (key : CmacKey) {search : PuzzleSearch} {rng : RandomStream}

theorem run_zero (search : PuzzleSearch) (rng : RandomStream) :
    run key 0 search rng = ⟨none, search, rng⟩ := rfl

theorem run_of_accepts (budget : Nat) (haccepts : accepts key search (rng.blockAt 0) = true) :
    run key (budget + 1) search rng = ⟨some (rng.blockAt 0), search.tried 1, rng.dropBlocks 1⟩ :=
  if_pos haccepts

theorem run_of_rejects (budget : Nat) (hrejects : accepts key search (rng.blockAt 0) = false) :
    run key (budget + 1) search rng = run key budget (search.tried 1) (rng.dropBlocks 1) :=
  if_neg (Bool.eq_false_iff.mp hrejects)

/-- A budget may be spent in two parts: nothing is left over from the first one but the search and
    the stream, and neither a candidate is skipped nor one tried again. -/
theorem run_add (first second : Nat) (search : PuzzleSearch) (rng : RandomStream) :
    run key (first + second) search rng = (run key first search rng).orElse (run key second) := by
  induction first generalizing search rng with
  | zero => rw [Nat.zero_add, run_zero, Outcome.orElse]
  | succ first ih =>
    rw [Nat.succ_add]
    cases haccepts : accepts key search (rng.blockAt 0) with
    | true => rw [run_of_accepts key _ haccepts, run_of_accepts key _ haccepts, Outcome.orElse]
    | false => rw [run_of_rejects key _ haccepts, run_of_rejects key _ haccepts, ih]

/-- A search stops at the first candidate that is accepted, and has drawn the candidates up to
    it. -/
theorem run_of_first (search : PuzzleSearch) {budget index : Nat} (hindex : index < budget)
    (haccepts : accepts key search (rng.blockAt index) = true)
    (hfirst : ∀ earlier < index, accepts key search (rng.blockAt earlier) = false) :
    run key budget search rng =
      ⟨some (rng.blockAt index), search.tried (index + 1), rng.dropBlocks (index + 1)⟩ := by
  induction index generalizing budget search rng with
  | zero =>
    obtain ⟨budget, rfl⟩ := Nat.exists_eq_succ_of_ne_zero (Nat.ne_of_gt hindex)
    exact run_of_accepts key budget haccepts
  | succ index ih =>
    obtain ⟨budget, rfl⟩ := Nat.exists_eq_succ_of_ne_zero (Nat.ne_of_gt (Nat.zero_lt_of_lt hindex))
    have hlaterAccepts : accepts key (search.tried 1) ((rng.dropBlocks 1).blockAt index) = true :=
      haccepts
    have hlater : ∀ earlier < index,
        accepts key (search.tried 1) ((rng.dropBlocks 1).blockAt earlier) = false :=
      fun earlier hearlier => hfirst (earlier + 1) (Nat.succ_lt_succ hearlier)
    rw [run_of_rejects key budget (hfirst 0 index.succ_pos),
      ih (search.tried 1) (Nat.lt_of_succ_lt_succ hindex) hlaterAccepts hlater]
    simp only [tried, Nat.add_assoc, Nat.add_comm 1]
    rfl

/-- A search that accepts no candidate has drawn its budget. -/
theorem run_of_none (search : PuzzleSearch) {budget : Nat}
    (hnone : ∀ index < budget, accepts key search (rng.blockAt index) = false) :
    run key budget search rng = ⟨none, search.tried budget, rng.dropBlocks budget⟩ := by
  induction budget generalizing search rng with
  | zero => rfl
  | succ budget ih =>
    have hlater : ∀ index < budget,
        accepts key (search.tried 1) ((rng.dropBlocks 1).blockAt index) = false :=
      fun index hindex => hnone (index + 1) (Nat.succ_lt_succ hindex)
    rw [run_of_rejects key budget (hnone 0 budget.succ_pos), ih (search.tried 1) hlater]
    simp only [tried, Nat.add_assoc, Nat.add_comm 1]
    rfl

/-- The challenge, and so the key, is the same after a search as before. -/
theorem challenge_run (budget : Nat) (search : PuzzleSearch) (rng : RandomStream) :
    (run key budget search rng).search.challenge = search.challenge := by
  induction budget generalizing search rng with
  | zero => rfl
  | succ budget ih =>
    cases haccepts : accepts key search (rng.blockAt 0) with
    | true => rw [run_of_accepts key budget haccepts, tried]
    | false => rw [run_of_rejects key budget haccepts, ih, tried]

end Run

/-- Steps with these budgets in turn are one step with their sum. -/
theorem steps_eq_step (budgets : List Nat) (search : PuzzleSearch) (rng : RandomStream) :
    steps budgets search rng = search.step budgets.sum rng := by
  induction budgets generalizing search rng with
  | nil => rfl
  | cons budget budgets ih =>
    rw [List.sum_cons, step, run_add, steps, Outcome.orElse, Outcome.orElse, step]
    cases (run (CmacKey.ofBlock search.challenge) budget search rng).answer with
    | some answer => rfl
    | none =>
      dsimp only
      rw [ih, step, challenge_run]

end PuzzleSearch

/-- A search with the CMAC that it keeps for all its candidates. -/
structure StreamedSearch where
  mac : CmacStream
  initiator : Hit
  responder : Hit
  k : UInt8
  attempts : Nat

namespace StreamedSearch

/-- The value that an answer is judged by, and the CMAC for the next one. -/
def judge (search : StreamedSearch) (answer : Block) : Block × CmacStream :=
  (((search.mac.update search.initiator.toBytes).update search.responder.toBytes).update
    answer.toList).finalize

/-- Try up to `budget` candidates. The CMAC that judged one judges the next. -/
def step : (budget : Nat) → StreamedSearch → RandomStream →
    Option Block × StreamedSearch × RandomStream
  | 0, search, rng => (none, search, rng)
  | budget + 1, search, rng =>
    let (candidate, rng) := rng.block
    let (value, mac) := search.judge candidate
    let search := { search with mac, attempts := search.attempts + 1 }
    if hasLeadingZeros search.k.toNat value.toList then (some candidate, search, rng)
    else step budget search rng

/-- Steps with these budgets in turn, until one of them finds an answer. -/
def steps : (budgets : List Nat) → StreamedSearch → RandomStream →
    Option Block × StreamedSearch × RandomStream
  | [], search, rng => (none, search, rng)
  | budget :: budgets, search, rng =>
    match search.step budget rng with
    | (some answer, search, rng) => (some answer, search, rng)
    | (none, search, rng) => steps budgets search rng

end StreamedSearch

namespace PuzzleSearch

/-- The search as it is on a streamed CMAC, with nothing of a candidate in it. -/
def streamed (search : PuzzleSearch) : StreamedSearch :=
  ⟨CmacStream.start (CmacKey.ofBlock search.challenge), search.initiator,
    search.responder, search.k, search.attempts⟩

def Outcome.streamed (outcome : Outcome) : Option Block × StreamedSearch × RandomStream :=
  (outcome.answer, outcome.search.streamed, outcome.rng)

end PuzzleSearch

namespace StreamedSearch

open PuzzleSearch (accepts run_of_accepts run_of_rejects)

/-- A CMAC that holds nothing judges an answer as a new one does, and holds nothing again. -/
theorem judge_streamed (search : PuzzleSearch) (answer : Block) :
    search.streamed.judge answer =
      (answerMac (CmacKey.ofBlock search.challenge) search.initiator search.responder answer,
        CmacStream.start (CmacKey.ofBlock search.challenge)) := by
  have hholds := (((CmacStream.holds_start (CmacKey.ofBlock search.challenge)).update
    search.initiator.toBytes).update search.responder.toBytes).update answer.toList
  have hfinalize := hholds.finalize
  simp only [CmacStream.key_update, List.nil_append] at hfinalize
  exact hfinalize

/-- A step on the streamed CMAC is a step of the search, with the CMAC ready for the next one. -/
theorem step_streamed (budget : Nat) (search : PuzzleSearch) (rng : RandomStream) :
    search.streamed.step budget rng = (search.step budget rng).streamed := by
  rw [PuzzleSearch.step]
  induction budget generalizing search rng with
  | zero => rfl
  | succ budget ih =>
    unfold step
    simp only [judge_streamed]
    cases haccepts : accepts (CmacKey.ofBlock search.challenge) search (rng.blockAt 0) with
    | true =>
      rw [run_of_accepts _ budget haccepts]
      exact if_pos haccepts
    | false =>
      rw [run_of_rejects _ budget haccepts]
      exact (if_neg (Bool.eq_false_iff.mp haccepts)).trans (ih (search.tried 1) (rng.dropBlocks 1))

theorem steps_streamed (budgets : List Nat) (search : PuzzleSearch) (rng : RandomStream) :
    search.streamed.steps budgets rng = (search.steps budgets rng).streamed := by
  induction budgets generalizing search rng with
  | nil => rfl
  | cons budget budgets ih =>
    unfold steps PuzzleSearch.steps PuzzleSearch.Outcome.orElse
    rw [step_streamed, PuzzleSearch.Outcome.streamed]
    cases hanswer : (search.step budget rng).answer with
    | some answer => simp only [PuzzleSearch.Outcome.streamed, hanswer]
    | none => exact ih _ _

end StreamedSearch

/-- What a search that was just begun comes to within `budget` candidates of the stream. The
    candidates that are counted and drawn are those up to the answer, or all of them. -/
inductive FindsFirst (challenge : Block) (initiator responder : Hit) (k : UInt8)
    (rng : RandomStream) (budget : Nat) : PuzzleSearch.Outcome → Prop
  | found (index : Nat) (hindex : index < budget)
      (hsolves : solves challenge (rng.blockAt index) initiator responder k = true)
      (hfirst : ∀ earlier < index,
        solves challenge (rng.blockAt earlier) initiator responder k = false) :
      FindsFirst challenge initiator responder k rng budget
        ⟨some (rng.blockAt index), ⟨challenge, initiator, responder, k, index + 1⟩,
          rng.dropBlocks (index + 1)⟩
  | exhausted
      (hnone : ∀ index < budget,
        solves challenge (rng.blockAt index) initiator responder k = false) :
      FindsFirst challenge initiator responder k rng budget
        ⟨none, ⟨challenge, initiator, responder, k, budget⟩, rng.dropBlocks budget⟩

theorem findsFirst_step (challenge : Block) (initiator responder : Hit) (k : UInt8)
    (rng : RandomStream) (budget : Nat) :
    FindsFirst challenge initiator responder k rng budget
      (PuzzleSearch.step ⟨challenge, initiator, responder, k, 0⟩ budget rng) := by
  let search : PuzzleSearch := ⟨challenge, initiator, responder, k, 0⟩
  by_cases hsome : ∃ index, index < budget ∧
      solves challenge (rng.blockAt index) initiator responder k = true
  · obtain ⟨hindex, hsolves⟩ := Nat.find_spec hsome
    have hfirst : ∀ earlier < Nat.find hsome,
        solves challenge (rng.blockAt earlier) initiator responder k = false :=
      fun earlier hearlier => Bool.eq_false_iff.mpr fun hsolves =>
        Nat.find_min hsome hearlier ⟨Nat.lt_trans hearlier hindex, hsolves⟩
    rw [PuzzleSearch.step, PuzzleSearch.run_of_first _ search hindex hsolves hfirst,
      PuzzleSearch.tried, Nat.zero_add]
    exact .found _ hindex hsolves hfirst
  · have hnone : ∀ index < budget,
        solves challenge (rng.blockAt index) initiator responder k = false :=
      fun index hindex => Bool.eq_false_iff.mpr fun hsolves => hsome ⟨index, hindex, hsolves⟩
    rw [PuzzleSearch.step, PuzzleSearch.run_of_none _ search hnone, PuzzleSearch.tried,
      Nat.zero_add]
    exact .exhausted hnone

/-- A search for a challenge that is spent in steps, on one CMAC that all candidates are judged
    with, comes to what one step with the whole budget comes to: the first candidate of the stream
    that solves the challenge. -/
theorem steps_eq_first_solution (challenge : Block) (initiator responder : Hit) {k : UInt8}
    (hk : k ≤ maxComplexity) (rng : RandomStream) (budgets : List Nat) :
    ∃ search, PuzzleSearch.start challenge initiator responder k = .ok search ∧
      search.streamed.steps budgets rng = (search.steps budgets rng).streamed ∧
      search.steps budgets rng = search.step budgets.sum rng ∧
      FindsFirst challenge initiator responder k rng budgets.sum (search.step budgets.sum rng) :=
  ⟨⟨challenge, initiator, responder, k, 0⟩, if_neg (UInt8.not_lt.mpr hk),
    StreamedSearch.steps_streamed .., PuzzleSearch.steps_eq_step .., findsFirst_step ..⟩

/-- A hard puzzle, tried in three steps. -/
theorem exists_stepwise_search : (20 : UInt8) ≤ maxComplexity ∧
    ∃ search, PuzzleSearch.start Block.zero Hit.zero Hit.zero 20 = .ok search ∧
      search.steps [3, 0, 4] default = search.step 7 default := by
  have hk : (20 : UInt8) ≤ maxComplexity := by decide
  obtain ⟨search, hstart, -, hsteps, -⟩ :=
    steps_eq_first_solution Block.zero Hit.zero Hit.zero hk default [3, 0, 4]
  exact ⟨hk, search, hstart, hsteps⟩

end DietExchange
