import DietExchange.Connection.Basic

namespace DietExchange

/-- The connections of an engine. -/
structure ConnectionTable where
  connections : List Connection
  nodup : (connections.map Connection.peer).Nodup
  deriving DecidableEq

namespace ConnectionTable

def empty : ConnectionTable := ⟨[], List.nodup_nil⟩

def size (table : ConnectionTable) : Nat := table.connections.length

/-- The peers, in the order in which their connections were opened. -/
def peers (table : ConnectionTable) : List Hit := table.connections.map Connection.peer

/-- The peers in another order: those that `order` names come first, as it names them, and the
    others stay as they are. -/
def visits (table : ConnectionTable) (order : List Hit) : List Hit :=
  table.peers.mergeSort fun a b => order.idxOf a ≤ order.idxOf b

/-- The connection with a peer. -/
def find? (table : ConnectionTable) (peer : Hit) : Option Connection :=
  table.connections.find? fun conn => conn.peer = peer

/-- The connections with this one in the place of the one with the same peer. -/
def replace (conn : Connection) (connections : List Connection) : List Connection :=
  connections.map fun old => if old.peer = conn.peer then conn else old

theorem map_peer_replace (conn : Connection) (connections : List Connection) :
    (replace conn connections).map Connection.peer = connections.map Connection.peer := by
  simp only [replace, List.map_map]
  apply List.map_congr_left
  intro old _
  simp only [Function.comp_apply]
  split
  · rename_i heq
    exact heq.symm
  · rfl

/-- The table with this connection with its peer: in the place of the one there was, or at the
    end. -/
def put (table : ConnectionTable) (conn : Connection) : ConnectionTable :=
  if h : conn.peer ∈ table.connections.map Connection.peer then
    ⟨replace conn table.connections, by rw [map_peer_replace]; exact table.nodup⟩
  else
    ⟨table.connections ++ [conn], by
      simp only [List.map_append, List.map_cons, List.map_nil]
      refine List.nodup_append.mpr ⟨table.nodup, by simp, ?_⟩
      intro peer hpeer other hother
      obtain rfl := List.mem_singleton.mp hother
      exact fun heq => h (heq ▸ hpeer)⟩

theorem visits_perm (table : ConnectionTable) (order : List Hit) :
    (table.visits order).Perm table.peers :=
  List.mergeSort_perm _ _

theorem peer_of_find? {table : ConnectionTable} {peer : Hit} {conn : Connection}
    (hfind : table.find? peer = some conn) : conn.peer = peer := by
  simpa using List.find?_some hfind

theorem find?_isSome_iff {table : ConnectionTable} {peer : Hit} :
    (table.find? peer).isSome ↔ peer ∈ table.peers := by
  simp [find?, peers, List.find?_isSome]

theorem find?_replace (conn : Connection) (connections : List Connection) (peer : Hit)
    (hmem : conn.peer ∈ connections.map Connection.peer) :
    (replace conn connections).find? (fun c => c.peer = peer) =
      if conn.peer = peer then some conn else connections.find? (fun c => c.peer = peer) := by
  induction connections with
  | nil => simp at hmem
  | cons head rest ih =>
    unfold replace at ih ⊢
    simp only [List.map_cons, List.find?_cons]
    by_cases hhead : head.peer = conn.peer
    · by_cases hpeer : conn.peer = peer
      · simp [hhead, hpeer]
      · have hrest : ∀ c ∈ rest, (if c.peer = conn.peer then conn else c).peer = c.peer := by
          intro c _
          split
          · rename_i heq
            exact heq.symm
          · rfl
        have hfind : (rest.map fun old => if old.peer = conn.peer then conn else old).find?
            (fun c => c.peer = peer) = rest.find? (fun c => c.peer = peer) := by
          clear ih hmem hrest
          induction rest with
          | nil => rfl
          | cons next others ih =>
            simp only [List.map_cons, List.find?_cons]
            by_cases hnext : next.peer = conn.peer
            · simp [hnext, hpeer, ih]
            · simp [hnext, ih]
        simp [hhead, hpeer, hfind]
    · have hmem' : conn.peer ∈ rest.map Connection.peer := by
        simp only [List.map_cons, List.mem_cons] at hmem
        exact hmem.resolve_left fun heq => hhead heq.symm
      rw [if_neg hhead, ih hmem']
      by_cases hpeer : conn.peer = peer
      · have hne : head.peer ≠ peer := fun heq => hhead (heq.trans hpeer.symm)
        simp [hpeer, hne]
      · simp [hpeer]

theorem find?_put (table : ConnectionTable) (conn : Connection) (peer : Hit) :
    (table.put conn).find? peer = if conn.peer = peer then some conn else table.find? peer := by
  unfold put find?
  split
  · rename_i hmem
    exact find?_replace conn table.connections peer hmem
  · rename_i hmem
    simp only [List.find?_append, List.find?_cons, List.find?_nil]
    by_cases hpeer : conn.peer = peer
    · have hnone : table.connections.find? (fun c => c.peer = peer) = none := by
        rw [List.find?_eq_none]
        intro c hc heq
        exact hmem (List.mem_map.mpr ⟨c, hc, (of_decide_eq_true heq).trans hpeer.symm⟩)
      simp [hpeer, hnone]
    · simp [hpeer]

end ConnectionTable

end DietExchange
