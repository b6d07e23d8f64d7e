import DietExchange.Outcome
import DietExchange.Proofs.Puzzle.LeadingBits
import DietExchange.Puzzle.Issuer

/-!
Rotations of the puzzle secret. The source of secrets may be another one for each rotation, and
any of them may fail. The window is a list that is cut to three; three places that the secrets
move through, and a loop over them that ends at the first secret that fits, come to the same
(`RingIssuer.Mirrors.rotate`, `RingIssuer.Mirrors.issue_eq`, `RingIssuer.Mirrors.verify_eq`).
-/

namespace DietExchange

/-- No answer solves a puzzle of a complexity that no CMAC can meet. -/
theorem le_maxComplexity_of_solves {challenge answer : Block} {initiator responder : Hit}
    {k : UInt8} (hsolves : solves challenge answer initiator responder k = true) :
      k ≤ maxComplexity := by
  have hbits := le_of_hasLeadingZeros hsolves
  rw [Block.length_toList] at hbits
  exact UInt8.le_iff_toNat_le.mpr hbits

/-- The secrets that these sources yield when each is asked once, in this order. -/
def EntropySource.yields (sources : List EntropySource) : List Block :=
  sources.filterMap fun source => source.draw.1.toOption

namespace PuzzleIssuer

theorem freshSecret_eq (source : EntropySource) : freshSecret source =
    (source.draw.1.mapError fun reason => .crypto (.entropyFailed reason), source.draw.2) := by
  unfold freshSecret EntropySource.draw
  cases source.answer source.calls <;> rfl

/-- An issuer is created exactly if its complexity can be met and the source yields a secret. -/
theorem create_eq_ok_iff {k : UInt8} {source rest : EntropySource} {issuer : PuzzleIssuer} :
    create k source = (.ok issuer, rest) ↔ k ≤ maxComplexity ∧ rest = source.draw.2 ∧
      ∃ secret, source.draw.1 = .ok secret ∧ issuer = ⟨k, 0, SecretWindow.empty.push secret⟩ := by
  unfold create
  rw [freshSecret_eq]
  by_cases hk : maxComplexity < k
  · simp [hk, UInt8.not_le.mpr hk]
  · rw [if_neg hk]
    cases hdraw : source.draw.1 with
    | error reason =>
      constructor
      · intro hcreate
        cases (Prod.mk.inj hcreate).1
      · rintro ⟨-, -, _, hsecret, -⟩
        cases hsecret
    | ok secret =>
      constructor
      · intro hcreate
        obtain ⟨hissuer, hrest⟩ := Prod.mk.inj hcreate
        exact ⟨UInt8.not_lt.mp hk, hrest.symm, secret, rfl, (Except.ok.inj hissuer).symm⟩
      · rintro ⟨-, rfl, _, hsecret, rfl⟩
        obtain rfl := Except.ok.inj hsecret
        rfl

/-- The issuer after an attempt to rotate with each of these sources. A failure leaves it as it
    is. -/
def rotateEach (issuer : PuzzleIssuer) (sources : List EntropySource) : PuzzleIssuer :=
  sources.foldl (fun issuer source => (issuer.rotate source).1.toOption.getD issuer) issuer

theorem rotateEach_append (issuer : PuzzleIssuer) (front back : List EntropySource) :
    issuer.rotateEach (front ++ back) = (issuer.rotateEach front).rotateEach back :=
      List.foldl_append

theorem toOption_rotate (issuer : PuzzleIssuer) (source : EntropySource) :
    (issuer.rotate source).1.toOption = source.draw.1.toOption.map fun secret => { issuer with
      window := issuer.window.push secret
      generation := issuer.generation + 1 } := by
  rw [rotate, freshSecret_eq]
  cases source.draw.1 <;> rfl

/-- Each secret that is drawn goes in front and counts as one generation, and three are kept. -/
theorem rotateEach_spec (issuer : PuzzleIssuer) (sources : List EntropySource) :
    (issuer.rotateEach sources).complexity = issuer.complexity ∧
    (issuer.rotateEach sources).generation =
      issuer.generation + (EntropySource.yields sources).length ∧
    (issuer.rotateEach sources).window.secrets =
      ((EntropySource.yields sources).reverse ++ issuer.window.secrets).take secretWindowSize := by
  induction sources generalizing issuer with
  | nil => exact ⟨rfl, rfl, (List.take_of_length_le issuer.window.length_le).symm⟩
  | cons source rest ih =>
    have hfirst : issuer.rotateEach (source :: rest) =
        ((issuer.rotate source).1.toOption.getD issuer).rotateEach rest := rfl
    rw [hfirst, toOption_rotate]
    cases hdraw : source.draw.1.toOption with
    | none =>
      have hyields : EntropySource.yields (source :: rest) = EntropySource.yields rest := by
        simp only [EntropySource.yields, List.filterMap_cons, hdraw]
      rw [hyields]
      exact ih issuer
    | some secret =>
      have hyields : EntropySource.yields (source :: rest) =
          secret :: EntropySource.yields rest := by
        simp only [EntropySource.yields, List.filterMap_cons, hdraw]
      obtain ⟨hcomplexity, hgeneration, hsecrets⟩ := ih { issuer with
        window := issuer.window.push secret
        generation := issuer.generation + 1 }
      rw [hyields]
      refine ⟨hcomplexity, ?_, ?_⟩
      · rw [Option.map_some, Option.getD_some, hgeneration, List.length_cons]
        dsimp only
        omega
      · rw [Option.map_some, Option.getD_some, hsecrets, SecretWindow.push, List.reverse_cons,
          List.append_assoc, List.singleton_append]
        simp only [List.take_append, List.take_take, Nat.min_eq_left (Nat.sub_le _ _)]

theorem verify_eq_true_iff {issuer : PuzzleIssuer} {challenge answer : Block}
    {initiator responder : Hit} {k : UInt8} {context : List UInt8} :
    issuer.verify challenge answer initiator responder k context = true ↔ k ≤ maxComplexity ∧
      (∃ secret ∈ issuer.window.secrets, challengeFor secret initiator responder context =
        challenge) ∧ solves challenge answer initiator responder k = true := by
  unfold verify
  split
  · rename_i hk
    simp [UInt8.not_le.mpr hk]
  · rename_i hk
    simp [UInt8.not_lt.mp hk]

/-- A secret in front is still kept after two others were drawn. -/
theorem mem_rotateEach {issuer : PuzzleIssuer} {secret : Block}
    (hnewest : issuer.window.newest? = some secret) {sources : List EntropySource}
    (hfew : (EntropySource.yields sources).length ≤ 2) :
    secret ∈ (issuer.rotateEach sources).window.secrets := by
  obtain ⟨-, -, hsecrets⟩ := issuer.rotateEach_spec sources
  obtain ⟨older, holder⟩ : ∃ older, issuer.window.secrets = secret :: older :=
    List.head?_eq_some_iff.mp hnewest
  have hplace : (EntropySource.yields sources).reverse.length < secretWindowSize := by
    rw [List.length_reverse]
    exact Nat.lt_succ_of_le hfew
  rw [hsecrets, holder]
  refine List.mem_of_getElem? (i := (EntropySource.yields sources).reverse.length) ?_
  rw [List.getElem?_take_of_lt hplace, List.getElem?_append_right (Nat.le_refl _), Nat.sub_self]
  rfl

/-- After any rotations, some of which may have failed, the last secrets that were drawn are kept,
    three at most and the newest first, and the generation tells how many were drawn after the first
    one. Challenges are issued under the newest, and accepted under any that is kept with an answer
    that solves them. So a challenge is still accepted when two more secrets were drawn, and any
    attempts failed. -/
theorem accepts_recent {k₀ : UInt8} {source rest : EntropySource} {issuer : PuzzleIssuer}
    (hcreate : create k₀ source = (.ok issuer, rest)) (sources : List EntropySource) :
    ∃ first, source.draw.1 = .ok first ∧ k₀ ≤ maxComplexity ∧
    (issuer.rotateEach sources).complexity = k₀ ∧
    (issuer.rotateEach sources).generation = (EntropySource.yields sources).length ∧
    (issuer.rotateEach sources).window.secrets =
      (first :: EntropySource.yields sources).reverse.take
      (min 3 ((issuer.rotateEach sources).generation + 1)) ∧
    (∃ newest, (first :: EntropySource.yields sources).getLast? = some newest ∧
      ∀ initiator responder context, (issuer.rotateEach sources).issue initiator responder context =
        .ok (challengeFor newest initiator responder context)) ∧
    ∀ challenge answer initiator responder k context,
      ((issuer.rotateEach sources).verify challenge answer initiator responder k context = true ↔
        k ≤ maxComplexity ∧
        (∃ secret ∈ (issuer.rotateEach sources).window.secrets,
          challengeFor secret initiator responder context = challenge) ∧
        solves challenge answer initiator responder k = true) ∧
      ∀ later : List EntropySource, (EntropySource.yields later).length ≤ 2 →
        (issuer.rotateEach sources).issue initiator responder context = .ok challenge →
        solves challenge answer initiator responder k = true →
        (issuer.rotateEach (sources ++ later)).verify challenge answer initiator responder
          k context =
          true := by
  obtain ⟨hk, -, first, hfirst, rfl⟩ := create_eq_ok_iff.mp hcreate
  let created : PuzzleIssuer := ⟨k₀, 0, SecretWindow.empty.push first⟩
  let drawn := EntropySource.yields sources
  obtain ⟨hcomplexity, hgeneration, hsecrets⟩ := created.rotateEach_spec sources
  have hkept : (created.rotateEach sources).window.secrets = (first :: drawn).reverse.take 3 := by
    rw [hsecrets, List.reverse_cons]
    rfl
  obtain ⟨newest, hnewest⟩ : ∃ newest, (first :: drawn).getLast? = some newest :=
    ⟨_, List.getLast?_cons⟩
  have hfront : (created.rotateEach sources).window.newest? = some newest := by
    rw [SecretWindow.newest?, hkept, List.head?_take, if_neg (by omega),
      List.head?_reverse, hnewest]
  have hissue : ∀ initiator responder context,
      (created.rotateEach sources).issue initiator responder context =
        .ok (challengeFor newest initiator responder context) := by
    intro initiator responder context
    rw [issue, hfront]
  refine ⟨first, hfirst, hk, hcomplexity, hgeneration.trans (Nat.zero_add _), ?_,
    ⟨newest, hnewest, hissue⟩, fun challenge answer initiator responder k context =>
      ⟨verify_eq_true_iff, ?_⟩⟩
  · have hlength : (first :: drawn).reverse.length =
        (created.rotateEach sources).generation + 1 := by
      rw [List.length_reverse, List.length_cons, hgeneration]
      exact congrArg (· + 1) (Nat.zero_add _).symm
    rw [hkept, ← hlength, ← List.take_eq_take_min]
  · intro later hfew hissued hsolves
    have hchallenge : challengeFor newest initiator responder context = challenge :=
      Except.ok.inj ((hissue initiator responder context).symm.trans hissued)
    rw [rotateEach_append]
    exact verify_eq_true_iff.mpr
      ⟨le_maxComplexity_of_solves hsolves,
        ⟨newest, mem_rotateEach hfront hfew, hchallenge⟩, hsolves⟩

/-- Four secrets and a failure: three are kept, and the newest came last. -/
theorem exists_accepts_recent : ∃ (issuer : PuzzleIssuer) (rest : EntropySource)
    (sources : List EntropySource), create 8 (.scripted [] 1) = (.ok issuer, rest) ∧
    (issuer.rotateEach sources).generation = 3 ∧
    (issuer.rotateEach sources).window.secrets =
      [.replicate 16 4, .replicate 16 3, .replicate 16 2] ∧
    ∃ initiator responder context, (issuer.rotateEach sources).issue initiator responder context =
      .ok (challengeFor (.replicate 16 4) initiator responder context) := by
  let sources : List EntropySource :=
    [.scripted [] 2, .scripted [.error "dry"] 0, .scripted [] 3, .scripted [] 4]
  have hyields : EntropySource.yields sources =
      [.replicate 16 2, .replicate 16 3, .replicate 16 4] := rfl
  have hcreate : create 8 (.scripted [] 1) =
      (.ok ⟨8, 0, SecretWindow.empty.push (.replicate 16 1)⟩,
        (EntropySource.scripted [] 1).draw.2) := rfl
  obtain ⟨first, hfirst, -, -, hgeneration, hsecrets, ⟨newest, hnewest, hissue⟩, -⟩ :=
    accepts_recent hcreate sources
  obtain rfl : first = .replicate 16 1 := Except.ok.inj (hfirst.symm.trans rfl)
  rw [hyields] at hgeneration hsecrets hnewest
  obtain rfl : .replicate 16 4 = newest := Option.some.inj hnewest
  rw [hgeneration] at hsecrets
  exact ⟨_, _, sources, hcreate, hgeneration, hsecrets, Hit.zero, Hit.zero, [], hissue _ _ _⟩

end PuzzleIssuer

/-- The secrets in their places, the newest in the first. A place is vacant until there are secrets
    enough. -/
structure SecretRing where
  places : Vector (Option Block) 3

namespace SecretRing

def empty : SecretRing := ⟨Vector.replicate 3 none⟩

/-- Every place is taken by what was in the place before it, the first by what was in the last. -/
def turn (ring : SecretRing) : SecretRing :=
  ⟨#v[ring.places[2], ring.places[0], ring.places[1]]⟩

/-- A fresh secret: the oldest is wiped out, the others move up, and the first place is taken. -/
def push (ring : SecretRing) (secret : Block) : SecretRing :=
  let wiped : SecretRing := ⟨ring.places.set 2 none⟩
  ⟨wiped.turn.places.set 0 (some secret)⟩

def newest? (ring : SecretRing) : Option Block := ring.places[0]

/-- What the places hold, place by place. -/
def retained (ring : SecretRing) : List Block := ring.places.toList.reduceOption

/-- Whether each place holds the secret of its number in the window. -/
def Holds (ring : SecretRing) (window : SecretWindow) : Prop :=
  ring.places = #v[window.secrets[0]?, window.secrets[1]?, window.secrets[2]?]

variable {ring : SecretRing} {window : SecretWindow}

theorem Holds.push (hholds : ring.Holds window) (secret : Block) :
    (ring.push secret).Holds (window.push secret) := by
  unfold Holds at hholds ⊢
  simp [SecretRing.push, turn, SecretWindow.push, hholds, secretWindowSize]

theorem Holds.newest?_eq (hholds : ring.Holds window) : ring.newest? = window.newest? := by
  unfold Holds at hholds
  simp [SecretRing.newest?, SecretWindow.newest?, hholds, List.head?_eq_getElem?]

theorem Holds.retained_eq (hholds : ring.Holds window) : ring.retained = window.secrets := by
  unfold Holds at hholds
  obtain ⟨secrets, hlength⟩ := window
  rw [retained, hholds]
  match secrets, hlength with
  | [], _ | [_], _ | [_, _], _ | [_, _, _], _ => rfl

end SecretRing

/-- An issuer that keeps its secrets in a ring. -/
structure RingIssuer where
  complexity : UInt8
  generation : Nat
  ring : SecretRing

namespace RingIssuer

/-- Replace the oldest secret, in place: nothing is changed before there is a fresh one. -/
def rotate (issuer : RingIssuer) (source : EntropySource) :
    Except Error Unit × RingIssuer × EntropySource :=
  match PuzzleIssuer.freshSecret source with
  | (.ok secret, source) =>
    let pushed := { issuer with ring := issuer.ring.push secret }
    (.ok (), { pushed with generation := pushed.generation + 1 }, source)
  | (.error error, source) => (.error error, issuer, source)

def issue (issuer : RingIssuer) (initiator responder : Hit) (context : List UInt8) :
    Except Error Block :=
  match issuer.ring.newest? with
  | some secret => .ok (challengeFor secret initiator responder context)
  | none => .error (.usage .noSecret)

/-- Look for a secret that the challenge was issued under. The first that fits decides. -/
def search (challenge answer : Block) (initiator responder : Hit) (k : UInt8)
    (context : List UInt8) : List Block → Bool
  | [] => false
  | secret :: older =>
    if challengeFor secret initiator responder context = challenge then
      solves challenge answer initiator responder k
    else search challenge answer initiator responder k context older

def verify (issuer : RingIssuer) (challenge answer : Block) (initiator responder : Hit) (k : UInt8)
    (context : List UInt8) : Bool :=
  if maxComplexity < k then false
  else search challenge answer initiator responder k context issuer.ring.retained

/-- It makes no difference that the search ends at the first secret that fits. -/
theorem search_eq (challenge answer : Block) (initiator responder : Hit) (k : UInt8)
    (context : List UInt8) (secrets : List Block) :
    search challenge answer initiator responder k context secrets =
      (secrets.any (fun secret => challengeFor secret initiator responder context == challenge) &&
        solves challenge answer initiator responder k) := by
  induction secrets with
  | nil => rfl
  | cons secret older ih =>
    rw [search, ih]
    split
    · rename_i hfits
      simp [hfits]
    · rename_i hother
      rw [List.any_cons, beq_eq_false_iff_ne.mpr hother, Bool.false_or]

/-- Whether an issuer with a ring stands for one with a window. -/
structure Mirrors (ringIssuer : RingIssuer) (issuer : PuzzleIssuer) : Prop where
  complexity : ringIssuer.complexity = issuer.complexity
  generation : ringIssuer.generation = issuer.generation
  ring : ringIssuer.ring.Holds issuer.window

variable {ringIssuer : RingIssuer} {issuer : PuzzleIssuer}

theorem Mirrors.rotate (hmirrors : ringIssuer.Mirrors issuer) (source : EntropySource) :
    (ringIssuer.rotate source).1 = (issuer.rotate source).1.map (fun _ => ()) ∧
      (ringIssuer.rotate source).2.1.Mirrors ((issuer.rotate source).1.toOption.getD issuer) ∧
      (ringIssuer.rotate source).2.2 = (issuer.rotate source).2 := by
  unfold RingIssuer.rotate PuzzleIssuer.rotate
  rw [PuzzleIssuer.freshSecret_eq]
  cases source.draw.1 with
  | error => exact ⟨rfl, hmirrors, rfl⟩
  | ok secret =>
    exact ⟨rfl, ⟨hmirrors.complexity, congrArg (· + 1) hmirrors.generation,
      hmirrors.ring.push secret⟩, rfl⟩

theorem Mirrors.issue_eq (hmirrors : ringIssuer.Mirrors issuer) (initiator responder : Hit)
    (context : List UInt8) :
    ringIssuer.issue initiator responder context = issuer.issue initiator responder context := by
  rw [RingIssuer.issue, hmirrors.ring.newest?_eq]
  rfl

theorem Mirrors.verify_eq (hmirrors : ringIssuer.Mirrors issuer) (challenge answer : Block)
    (initiator responder : Hit) (k : UInt8) (context : List UInt8) :
    ringIssuer.verify challenge answer initiator responder k context =
      issuer.verify challenge answer initiator responder k context := by
  rw [RingIssuer.verify, search_eq, hmirrors.ring.retained_eq, PuzzleIssuer.verify]

end RingIssuer

end DietExchange
