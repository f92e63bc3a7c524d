import Keyring.Proofs.KeyNode.Intact

/-!
# Going down the key tree

Children are derived one below the other.  `Descends` is the way down on which every child was
there, `Stops` the one that ends at the first child that was not; a list of numbers leads to one
of the two and is answered accordingly (`foldlM_derive_eq_ok_iff`, `foldlM_derive_eq_error_iff`).
Since a way can be interrupted anywhere, deriving all of it is deriving a part and then the rest
(`deriveIndices_append`).

A node that was only passed on the way is cleared as soon as its child has taken its place
(`deriveClearing`).  The child has its own material, so this changes nothing of the result.
-/

namespace Keyring.KeyNode

variable {node child leaf : KeyNode} {index : UInt32} {indices : List UInt32} {e : WalletError}

/-! ## One child -/

/-- What a child has from its parent, and that it has a key of its own. -/
structure IsChild (child parent : KeyNode) (index : UInt32) : Prop where
  depth_eq : child.depth.toNat = parent.depth.toNat + 1
  childNumber_eq : child.childNumber = index
  fingerprint_eq : parent.fingerprint = .ok child.parentFingerprint
  network_eq : child.network? = parent.network?
  live : child.isCleared = false

theorem isChild_of_derive (h : node.derive index = .ok child) : child.IsChild node index := by
  obtain ⟨network, secret, chainCode, fingerprint, hnetwork, hdepth, hfingerprint, hparts⟩ :=
    exists_parts_of_derive_eq_ok h
  obtain ⟨-, rfl⟩ := ofParts_eq_ok_iff.mp hparts
  exact ⟨toNat_depth_add_one hdepth, rfl, hfingerprint, hnetwork.symm, rfl⟩

/-- The child of an intact node is intact on the same network. -/
theorem Intact.of_derive {m : KeyMaterial} {network : Network} (hnode : node.Intact m network)
    (h : node.derive index = .ok child) : ∃ m', child.Intact m' network := by
  obtain ⟨m', network', hintact⟩ := intact_of_derive_eq_ok h
  have hnetwork := (isChild_of_derive h).network_eq
  rw [hintact.network_eq, hnode.network_eq] at hnetwork
  cases hnetwork
  exact ⟨m', hintact⟩

/-! ## The way down -/

/-- The children of the given numbers lead one below the other from a node to a leaf. -/
inductive Descends : KeyNode → List UInt32 → KeyNode → Prop
  | stay (node : KeyNode) : Descends node [] node
  | down {node child leaf : KeyNode} {index : UInt32} {indices : List UInt32}
      (hchild : node.derive index = .ok child) (hleaf : Descends child indices leaf) :
      Descends node (index :: indices) leaf

/-- There is no child of one of the given numbers, and this is the first. -/
def Stops (node : KeyNode) (indices : List UInt32) (e : WalletError) : Prop :=
  ∃ done index rest last, indices = done ++ index :: rest ∧ Descends node done last ∧
    last.derive index = .error e

theorem foldlM_derive_eq_ok_iff : indices.foldlM derive node = .ok leaf ↔
    Descends node indices leaf := by
  induction indices generalizing node with
  | nil =>
      rw [List.foldlM_nil, pure_eq_ok_iff]
      constructor
      · rintro rfl
        exact .stay node
      · rintro ⟨⟩
        rfl
  | cons index indices ih =>
      rw [List.foldlM_cons, bind_eq_ok_iff]
      constructor
      · rintro ⟨child, hchild, hleaf⟩
        exact .down hchild (ih.mp hleaf)
      · rintro (_ | ⟨hchild, hleaf⟩)
        exact ⟨_, hchild, ih.mpr hleaf⟩

theorem foldlM_derive_eq_error_iff : indices.foldlM derive node = .error e ↔
    Stops node indices e := by
  induction indices generalizing node with
  | nil =>
      constructor
      · intro h
        exact absurd h pure_ne_error
      · rintro ⟨done, index, rest, last, hsplit, -⟩
        exact absurd hsplit (by simp)
  | cons index indices ih =>
      rw [List.foldlM_cons, bind_eq_error_iff]
      constructor
      · rintro (hfirst | ⟨child, hchild, hrest⟩)
        · exact ⟨[], index, indices, node, rfl, .stay node, hfirst⟩
        · obtain ⟨done, index', rest, last, rfl, hlast, herror⟩ := ih.mp hrest
          exact ⟨index :: done, index', rest, last, rfl, .down hchild hlast, herror⟩
      · rintro ⟨done, index', rest, last, hsplit, hlast, herror⟩
        cases hlast with
        | stay =>
            obtain ⟨rfl, -⟩ := List.cons.inj hsplit
            exact Or.inl herror
        | down hchild hlast =>
            obtain ⟨rfl, rfl⟩ := List.cons.inj hsplit
            exact Or.inr ⟨_, hchild, ih.mpr ⟨_, _, _, _, rfl, hlast, herror⟩⟩

theorem deriveIndices_eq_foldlM (node : KeyNode) (h : indices ≠ []) :
    node.deriveIndices indices = indices.foldlM derive node := by
  cases indices with
  | nil => exact absurd rfl h
  | cons index indices => rfl

theorem deriveIndices_eq_ok_iff (h : indices ≠ []) :
    node.deriveIndices indices = .ok leaf ↔ Descends node indices leaf := by
  rw [deriveIndices_eq_foldlM node h, foldlM_derive_eq_ok_iff]

theorem deriveIndices_eq_error_iff (h : indices ≠ []) :
    node.deriveIndices indices = .error e ↔ Stops node indices e := by
  rw [deriveIndices_eq_foldlM node h, foldlM_derive_eq_error_iff]

/-- Deriving all of the way is deriving a part of it and then the rest. -/
theorem deriveIndices_append (node : KeyNode) {first rest : List UInt32} (hfirst : first ≠ [])
    (hrest : rest ≠ []) :
    node.deriveIndices (first ++ rest) =
      node.deriveIndices first >>= (·.deriveIndices rest) := by
  have hall : first ++ rest ≠ [] := List.append_ne_nil_of_left_ne_nil hfirst rest
  rw [deriveIndices_eq_foldlM node hall, deriveIndices_eq_foldlM node hfirst,
    List.foldlM_append]
  exact congrArg (first.foldlM derive node >>= ·)
    (funext fun child => (deriveIndices_eq_foldlM child hrest).symm)

theorem descends_append_iff {first rest : List UInt32} :
    Descends node (first ++ rest) leaf ↔
      ∃ middle, Descends node first middle ∧ Descends middle rest leaf := by
  simp only [← foldlM_derive_eq_ok_iff, List.foldlM_append, bind_eq_ok_iff]

/-- The last node of a way is the child of the one before it. -/
theorem Descends.exists_parent (h : Descends node (indices ++ [index]) leaf) :
    ∃ parent, Descends node indices parent ∧ leaf.IsChild parent index := by
  obtain ⟨parent, hparent, hlast⟩ := descends_append_iff.mp h
  cases hlast with
  | down hchild hstay =>
      cases hstay
      exact ⟨parent, hparent, isChild_of_derive hchild⟩

/-- Every child is one level deeper. -/
theorem Descends.toNat_depth (h : Descends node indices leaf) :
    leaf.depth.toNat = node.depth.toNat + indices.length := by
  induction h with
  | stay node => rfl
  | down hchild _ ih =>
      rw [ih, (isChild_of_derive hchild).depth_eq, List.length_cons]
      omega

theorem Descends.intact {m : KeyMaterial} {network : Network} (h : Descends node indices leaf)
    (hnode : node.Intact m network) : ∃ m', leaf.Intact m' network := by
  induction h generalizing m with
  | stay node => exact ⟨m, hnode⟩
  | down hchild _ ih =>
      obtain ⟨m', hintact⟩ := hnode.of_derive hchild
      exact ih hintact

/-- Where there are levels enough below a node, nothing stops the way but a number without a
key. -/
theorem Stops.eq_invalidChildKey {m : KeyMaterial} {network : Network}
    (h : Stops node indices e) (hnode : node.Intact m network)
    (hdepth : node.depth.toNat + indices.length ≤ 255) :
    ∃ index ∈ indices, e = .invalidChildKey index := by
  obtain ⟨done, index, rest, last, rfl, hlast, herror⟩ := h
  obtain ⟨m', hintact⟩ := hlast.intact hnode
  have hshallow : last.depth.toNat < 255 := by
    rw [List.length_append, List.length_cons] at hdepth
    rw [hlast.toNat_depth]
    omega
  exact ⟨index, List.mem_append_right _ List.mem_cons_self,
    hintact.derive_eq_error hshallow herror⟩

/-! ## Clearing what was passed -/

/-- Goes down from a node that is only passed: its child takes its place, and it is cleared.
Gives the last node, and all that was passed behind what was passed before. -/
def descendClearing (node : KeyNode) (passed : List KeyNode) :
    List UInt32 → Except WalletError (KeyNode × List KeyNode)
  | [] => .ok (node, passed)
  | index :: rest => do
    let child ← node.derive index
    child.descendClearing (passed ++ [node.clear]) rest

/-- Derives the given children one below the other from a node that is kept. -/
def deriveClearing (node : KeyNode) : List UInt32 → Except WalletError (KeyNode × List KeyNode)
  | [] => .error (.derivation .emptyPath)
  | index :: rest => do (← node.derive index).descendClearing [] rest

variable {passed done : List KeyNode}

theorem fst_descendClearing (node : KeyNode) (passed : List KeyNode) (indices : List UInt32) :
    Prod.fst <$> node.descendClearing passed indices = indices.foldlM derive node := by
  induction indices generalizing node passed with
  | nil => rfl
  | cons index indices ih =>
      rw [descendClearing, map_bind, List.foldlM_cons]
      exact congrArg (node.derive index >>= ·) (funext fun child => ih child _)

/-- One node more is passed at each step, and it is cleared when it is. -/
theorem cleared_of_descendClearing (hpassed : ∀ earlier ∈ passed, earlier.Cleared)
    (h : node.descendClearing passed indices = .ok (leaf, done)) :
    done.length = passed.length + indices.length ∧ ∀ earlier ∈ done, earlier.Cleared := by
  induction indices generalizing node passed with
  | nil =>
      cases h
      exact ⟨rfl, hpassed⟩
  | cons index indices ih =>
      obtain ⟨child, -, h⟩ := bind_eq_ok_iff.mp h
      have hnext : ∀ earlier ∈ passed ++ [node.clear], earlier.Cleared := by
        intro earlier hearlier
        rcases List.mem_append.mp hearlier with hold | hnew
        · exact hpassed earlier hold
        · rw [List.mem_singleton.mp hnew]
          exact node.clear_cleared
      obtain ⟨hlength, hdone⟩ := ih hnext h
      refine ⟨?_, hdone⟩
      rw [hlength, List.length_append, List.length_singleton, List.length_cons]
      omega

/-- Clearing the nodes that are passed does not change where the way leads. -/
theorem fst_deriveClearing (node : KeyNode) (indices : List UInt32) :
    Prod.fst <$> node.deriveClearing indices = node.deriveIndices indices := by
  cases indices with
  | nil => rfl
  | cons index indices =>
      rw [deriveClearing, map_bind, deriveIndices]
      exact congrArg (node.derive index >>= ·) (funext fun child => fst_descendClearing child [] _)

/-- All nodes between the first and the last are cleared. -/
theorem cleared_of_deriveClearing (h : node.deriveClearing indices = .ok (leaf, done)) :
    done.length + 1 = indices.length ∧ ∀ earlier ∈ done, earlier.Cleared := by
  cases indices with
  | nil => cases h
  | cons index indices =>
      obtain ⟨child, -, h⟩ := bind_eq_ok_iff.mp h
      obtain ⟨hlength, hdone⟩ := cleared_of_descendClearing (by simp) h
      rw [List.length_nil, Nat.zero_add] at hlength
      exact ⟨by rw [hlength, List.length_cons], hdone⟩

end Keyring.KeyNode
