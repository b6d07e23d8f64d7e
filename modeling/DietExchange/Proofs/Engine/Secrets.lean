import DietExchange.Proofs.Engine.Invariant
import DietExchange.Proofs.Puzzle.Rotation

namespace DietExchange

/-- Whether a source still has this secret to give. -/
def EntropySource.CanGive (source : EntropySource) (secret : Block) : Prop :=
  ∃ call, source.calls ≤ call ∧ source.answer call = .ok secret

theorem EntropySource.canGive_draw {source : EntropySource} {secret : Block} :
    source.CanGive secret ↔ source.draw.1 = .ok secret ∨ source.draw.2.CanGive secret := by
  constructor
  · rintro ⟨call, hle, hanswer⟩
    rcases Nat.eq_or_lt_of_le hle with rfl | hlt
    · exact .inl hanswer
    · exact .inr ⟨call, hlt, hanswer⟩
  · rintro (hanswer | ⟨call, hle, hanswer⟩)
    · exact ⟨source.calls, Nat.le_refl _, hanswer⟩
    · exact ⟨call, Nat.le_of_succ_le hle, hanswer⟩

namespace SecretWindow

theorem mem_push {window : SecretWindow} {fresh secret : Block}
    (hmem : secret ∈ (window.push fresh).secrets) : secret = fresh ∨ secret ∈ window.secrets :=
  List.mem_cons.mp (List.mem_of_mem_take hmem)

end SecretWindow

namespace Engine

/-- Whether an engine can ever keep this secret. -/
def CanKeep (engine : Engine) (secret : Block) : Prop :=
  secret ∈ engine.issuer.window.secrets ∨ engine.entropy.CanGive secret

variable {engine : Engine} {secret : Block}

theorem CanKeep.of_same {old new : Engine} (hissuer : new.issuer = old.issuer)
    (hentropy : new.entropy = old.entropy) (hkeeps : new.CanKeep secret) : old.CanKeep secret := by
  unfold CanKeep at hkeeps ⊢
  rwa [hissuer, hentropy] at hkeeps

/-- A secret that comes in its turn is one that the source had to give. -/
theorem CanKeep.of_rotateSecret {now : Nat} (hkeeps : (engine.rotateSecret now).1.CanKeep secret) :
    engine.CanKeep secret := by
  unfold rotateSecret PuzzleIssuer.rotate at hkeeps
  dsimp only at hkeeps
  rw [PuzzleIssuer.freshSecret_eq] at hkeeps
  split at hkeeps
  · cases hdraw : engine.entropy.draw.1 with
    | error reason =>
      rw [hdraw] at hkeeps
      exact hkeeps.imp_right fun hgives => EntropySource.canGive_draw.mpr (.inr hgives)
    | ok fresh =>
      rw [hdraw] at hkeeps
      rcases hkeeps with hmem | hgives
      · rcases SecretWindow.mem_push hmem with rfl | hold
        · exact .inr (EntropySource.canGive_draw.mpr (.inl hdraw))
        · exact .inl hold
      · exact .inr (EntropySource.canGive_draw.mpr (.inr hgives))
  · exact hkeeps

/-- What an engine can keep after a call, it could keep before. -/
theorem CanKeep.of_after {call : Call} (hkeeps : (engine.after call).CanKeep secret) :
    engine.CanKeep secret := by
  have hbecomes := engine.becomes_after call
  generalize hafter : engine.after call = after at hbecomes hkeeps
  cases hbecomes with
  | idle | polled | dropped | closed => exact hkeeps
  | connected _ hturned | received _ _ _ hturned =>
    obtain ⟨hsame, -⟩ := hturned.effect
    exact hkeeps.of_same hsame.issuer hsame.entropy
  | @elapsed order now _ _ _ hopen _ =>
    have horder := engine.table.visits_perm order
    obtain ⟨issuer, entropy, timer, hrotate, -⟩ := (engine.advance now).rotateSecret_spec now
    have htable : ((engine.advance now).rotateSecret now).1.table = engine.table := by
      rw [hrotate]
      rfl
    obtain ⟨hsame, -⟩ := ((engine.advance now).rotateSecret now).1.sweepAndVisit_spec
      (horder.trans (List.Perm.of_eq (congrArg ConnectionTable.peers htable.symm))) now
    rw [← hafter, show engine.after (.handleTimeout order now) =
      _ from engine_handleTimeoutIn hopen _ _] at hkeeps
    exact (hkeeps.of_same hsame.issuer hsame.entropy).of_rotateSecret

theorem CanKeep.of_run {calls : List Call} (hkeeps : (engine.run calls).CanKeep secret) :
    engine.CanKeep secret := by
  induction calls generalizing engine with
  | nil => exact hkeeps
  | cons call rest ih => exact (ih hkeeps).of_after

section Create

variable {config : Config} {identity : HostIdentity} {source rest : EntropySource}
  {systemSeed : UInt64} {now : Nat} {log : List Log.Event}
  (hcreate : create config identity source systemSeed now = (.ok (engine, log), rest))
include hcreate

/-- A new engine keeps the second secret that its source gives; the first one was only to try it. -/
theorem create_secret : ∃ first, source.draw.2.draw.1 = .ok first ∧
    engine.issuer.window = SecretWindow.empty.push first ∧
    engine.entropy = source.draw.2.draw.2 := by
  unfold create at hcreate
  split at hcreate
  · cases (Prod.mk.inj hcreate).1
  rename_i tried hhelpers
  split at hcreate
  · cases (Prod.mk.inj hcreate).1
  rename_i issuer left hissuer
  obtain ⟨rfl, -⟩ := Prod.mk.inj (Except.ok.inj (Prod.mk.inj hcreate).1)
  have htried : tried = source.draw.2 := by
    unfold Config.checkHelpers at hhelpers
    split at hhelpers
    · cases (Prod.mk.inj hhelpers).1
    · split at hhelpers
      · rename_i hdraw
        rw [hdraw, ← (Prod.mk.inj hhelpers).2]
      · cases (Prod.mk.inj hhelpers).1
  obtain ⟨-, hleft, first, hfirst, rfl⟩ := PuzzleIssuer.create_eq_ok_iff.mp hissuer
  rw [← htried]
  exact ⟨first, hfirst, rfl, hleft⟩

/-- A new engine can keep nothing but what its source gives. -/
theorem canKeep_create (hkeeps : engine.CanKeep secret) : source.CanGive secret := by
  obtain ⟨first, hfirst, hwindow, hentropy⟩ := create_secret hcreate
  refine EntropySource.canGive_draw.mpr (.inr (EntropySource.canGive_draw.mpr ?_))
  unfold CanKeep at hkeeps
  rw [hwindow, hentropy] at hkeeps
  refine hkeeps.imp_left fun hmem => ?_
  rcases SecretWindow.mem_push hmem with rfl | hnone
  · exact hfirst
  · exact absurd hnone List.not_mem_nil

end Create

end Engine

end DietExchange
