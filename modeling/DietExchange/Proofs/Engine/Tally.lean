import DietExchange.Proofs.Connection.Balance
import DietExchange.Proofs.Engine.Effect

namespace DietExchange

theorem Timer.isArmed_fire (timer : Timer) (now : Nat) : (timer.fire now).2.isArmed =
    timer.isArmed := by
  unfold fire
  split
  · rename_i deadline hdeadline
    split
    · rfl
    · simp [arm, isArmed, hdeadline]
  · rfl

namespace ConnectionTable

/-- How many connections wait for an answer. -/
def waiting (table : ConnectionTable) : Nat :=
  table.connections.countP (·.state.needsRetransmission)

/-- How many of the connections with others than this peer do. -/
def waitingBeside (table : ConnectionTable) (peer : Hit) : Nat :=
  table.connections.countP fun conn => conn.peer ≠ peer ∧ conn.state.needsRetransmission

/-- Whether there is a connection with this peer that does. -/
def waitsFor (table : ConnectionTable) (peer : Hit) : Bool :=
  (table.find? peer).any (·.state.needsRetransmission)

variable {table : ConnectionTable} {conn : Connection} {peer : Hit}

theorem countP_beside {connections : List Connection}
    (hmem : peer ∉ connections.map Connection.peer) :
    connections.countP (fun other => other.peer ≠ peer ∧ other.state.needsRetransmission) =
      connections.countP (·.state.needsRetransmission) := by
  refine List.countP_congr fun other hother => ?_
  have hpeer : other.peer ≠ peer := by
    rintro rfl
    exact hmem (List.mem_map_of_mem hother)
  simp [hpeer]

theorem countP_replace {connections : List Connection}
    (hnodup : (connections.map Connection.peer).Nodup)
    (hmem : conn.peer ∈ connections.map Connection.peer) :
    (replace conn connections).countP (·.state.needsRetransmission) =
      connections.countP (fun other => other.peer ≠ conn.peer ∧ other.state.needsRetransmission) +
        conn.state.needsRetransmission.toNat := by
  induction connections with
  | nil => exact absurd hmem List.not_mem_nil
  | cons head rest ih =>
    obtain ⟨hhead, hrest⟩ := List.nodup_cons.mp hnodup
    have hreplace : replace conn (head :: rest) =
      (if head.peer = conn.peer then conn else head) :: replace conn rest := rfl
    rw [hreplace, List.countP_cons, List.countP_cons]
    by_cases hpeer : head.peer = conn.peer
    · -- no other connection is with this peer
      rw [hpeer] at hhead
      have hsame : replace conn rest = rest := by
        refine (List.map_congr_left fun other hother => if_neg ?_).trans (List.map_id _)
        intro heq
        exact hhead (heq ▸ List.mem_map_of_mem hother)
      rw [hsame, countP_beside hhead]
      cases hwaits : conn.state.needsRetransmission <;> simp [hpeer, hwaits]
    · have hmemRest := (List.mem_cons.mp hmem).resolve_left (Ne.symm hpeer)
      rw [ih hrest hmemRest, if_neg hpeer, Nat.add_right_comm]
      simp [hpeer]

theorem waiting_put (table : ConnectionTable) (conn : Connection) : (table.put conn).waiting =
    table.waitingBeside conn.peer + conn.state.needsRetransmission.toNat := by
  unfold put
  split
  · rename_i hmem
    exact countP_replace table.nodup hmem
  · rename_i hmem
    rw [waitingBeside, countP_beside hmem, waiting, List.countP_append]
    cases hwaits : conn.state.needsRetransmission <;> simp [hwaits]

theorem mem_put {other : Connection} (hmem : other ∈ (table.put conn).connections) :
    other = conn ∨ other ∈ table.connections := by
  have hfind := find?_eq_some_iff.mpr ⟨hmem, rfl⟩
  rw [find?_put] at hfind
  split at hfind
  · exact .inl (Option.some.inj hfind).symm
  · exact .inr (find?_eq_some_iff.mp hfind).1

/-- The connection with one peer counts apart from the others. -/
theorem waiting_eq (table : ConnectionTable) (peer : Hit) :
    table.waiting = table.waitingBeside peer + (table.waitsFor peer).toNat := by
  unfold waitsFor
  cases hfind : table.find? peer with
  | none =>
    have hmem : peer ∉ table.peers := by
      rw [← find?_isSome_iff, hfind]
      exact Bool.false_ne_true
    exact (countP_beside hmem).symm
  | some conn =>
    obtain rfl := peer_of_find? hfind
    rw [Option.any_some, ← waiting_put, put_of_find? hfind]

end ConnectionTable

namespace Engine

/-- Whether an engine counts this many connections that wait, and has the timer armed exactly if
    there are any. -/
def Counts (engine : Engine) (count : Nat) : Prop :=
  engine.retransmitting = count ∧ (engine.isRetransmissionArmed = true ↔ 0 < count)

section Counts

variable {engine : Engine} {count : Nat}

theorem Counts.beginRetransmission (hcounts : engine.Counts count) :
    engine.beginRetransmission.1.Counts (count + 1) := by
  obtain ⟨rfl, harmed⟩ := hcounts
  unfold Engine.beginRetransmission
  dsimp only
  split
  · exact ⟨rfl, by simp [isRetransmissionArmed, Timer.arm, Timer.isArmed]⟩
  · rename_i hmore
    have hbefore : 0 < engine.retransmitting := by omega
    exact ⟨rfl, iff_of_true (harmed.mpr hbefore) (Nat.succ_pos _)⟩

theorem Counts.endRetransmission (hcounts : engine.Counts (count + 1)) :
    engine.endRetransmission.1.Counts count := by
  obtain ⟨hcount, harmed⟩ := hcounts
  have hless : engine.retransmitting - 1 = count := by omega
  unfold Engine.endRetransmission
  dsimp only
  rw [hless]
  split
  · rename_i hnone
    exact ⟨rfl, by simp [isRetransmissionArmed, Timer.disarm, Timer.isArmed, hnone]⟩
  · rename_i hmore
    exact ⟨rfl, iff_of_true (harmed.mpr (Nat.succ_pos _)) (Nat.pos_of_ne_zero hmore)⟩

/-- What a connection asks for changes the count by what it changes of the connection. -/
theorem Counts.obeyAll {others : Nat} {waited waits : Bool} {signals : List Signal}
    (hleads : Signal.Leads waited signals waits) (hcounts : engine.Counts (others + waited.toNat))
    (peer : Hit) (address : Address) :
    (engine.obeyAll peer address signals).1.Counts (others + waits.toNat) := by
  induction hleads generalizing engine with
  | nil => exact hcounts
  | start _ ih => exact ih hcounts.beginRetransmission
  | stop _ ih => exact ih hcounts.endRetransmission
  | transmit _ _ ih => exact ih hcounts
  | connected _ ih => exact ih hcounts

end Counts

end Engine

end DietExchange
