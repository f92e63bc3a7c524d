import Keyring.Proofs.KeyNode.Descent
import Keyring.Proofs.Path.Indices

/-!
# Deriving the nodes of a path

The way to an address has five steps, and it is interrupted after the third, at the node of the
account, which is asked for by itself when its public key is exported.  A path with a level that
is no child number is refused before the first step.  Of all others the way is that of the five
child numbers, one below the other (`derivePath_of_inRange`): it ends at the first child that is
not there, or at the node of the address.
-/

namespace Keyring.PathScheme

open KeyNode

variable {scheme : PathScheme} {root account leaf : KeyNode} {p : AddressPath} {e : WalletError}

theorem inRange_fullPath_iff : (scheme.fullPath p).InRange ↔
    scheme.purpose < hardenedOffset ∧ scheme.coinType < hardenedOffset ∧
      p.account < hardenedOffset ∧ p.change < hardenedOffset ∧ p.addressIndex < hardenedOffset :=
  Bip44Path.inRange_iff

theorem derivePath_of_indices_eq_error (h : (scheme.fullPath p).indices = .error e) :
    scheme.derivePath root p = .error e := by
  rw [derivePath, h]
  rfl

theorem derivePath_of_inRange (h : (scheme.fullPath p).InRange) :
    scheme.derivePath root p = do
      let account ← root.deriveIndices (scheme.fullPath p).accountIndices
      let leaf ← account.deriveIndices (scheme.fullPath p).leafIndices
      return (account, leaf) := by
  rw [derivePath, Bip44Path.indices_of_inRange h]
  rfl

/-- The node of an account does not depend on what is asked for below it. -/
theorem deriveAccount_of_inRange (h : (scheme.fullPath p).InRange) :
    scheme.deriveAccount root p.account =
      root.deriveIndices (scheme.fullPath p).accountIndices := by
  obtain ⟨hpurpose, hcoin, hnumber, -, -⟩ := inRange_fullPath_iff.mp h
  -- The path of the account alone has zeros for the levels below.
  have hzero : (0 : UInt32) < hardenedOffset := by decide
  have halone : (scheme.fullPath ⟨p.account, 0, 0⟩).InRange :=
    inRange_fullPath_iff.mpr ⟨hpurpose, hcoin, hnumber, hzero, hzero⟩
  rw [deriveAccount, Bip44Path.indices_of_inRange halone]
  rfl

theorem derivePath_of_deriveAccount (h : (scheme.fullPath p).InRange)
    (haccount : scheme.deriveAccount root p.account = .ok account) :
    scheme.derivePath root p = do
      let leaf ← account.deriveIndices (scheme.fullPath p).leafIndices
      return (account, leaf) := by
  rw [derivePath_of_inRange h, ← deriveAccount_of_inRange h, haccount]
  rfl

theorem derivePath_eq_ok_iff : scheme.derivePath root p = .ok (account, leaf) ↔
    (scheme.fullPath p).InRange ∧
      Descends root (scheme.fullPath p).accountIndices account ∧
      Descends account (scheme.fullPath p).leafIndices leaf := by
  rw [derivePath, bind_eq_ok_iff]
  constructor
  · rintro ⟨indices, hindices, h⟩
    obtain ⟨hrange, rfl⟩ := Bip44Path.indices_eq_ok_iff.mp hindices
    obtain ⟨account', haccount, h⟩ := bind_eq_ok_iff.mp h
    obtain ⟨leaf', hleaf, h⟩ := bind_eq_ok_iff.mp h
    cases h
    exact ⟨hrange, (deriveIndices_eq_ok_iff (Bip44Path.accountIndices_ne_nil _)).mp haccount,
      (deriveIndices_eq_ok_iff (Bip44Path.leafIndices_ne_nil _)).mp hleaf⟩
  · rintro ⟨hrange, haccount, hleaf⟩
    refine ⟨_, Bip44Path.indices_of_inRange hrange, bind_eq_ok_iff.mpr ⟨account, ?_, ?_⟩⟩
    · exact (deriveIndices_eq_ok_iff (Bip44Path.accountIndices_ne_nil _)).mpr haccount
    · exact bind_eq_ok_iff.mpr
        ⟨leaf, (deriveIndices_eq_ok_iff (Bip44Path.leafIndices_ne_nil _)).mpr hleaf, rfl⟩

theorem deriveAccount_of_derivePath_eq_ok (h : scheme.derivePath root p = .ok (account, leaf)) :
    scheme.deriveAccount root p.account = .ok account := by
  obtain ⟨hrange, haccount, -⟩ := derivePath_eq_ok_iff.mp h
  rw [deriveAccount_of_inRange hrange]
  exact (deriveIndices_eq_ok_iff (Bip44Path.accountIndices_ne_nil _)).mpr haccount

/-- The last step to the account is numbered by it. -/
theorem exists_parent_of_account (h : Descends root (scheme.fullPath p).accountIndices account) :
    ∃ coinType, account.IsChild coinType (hardenedOffset ||| p.account) := by
  have hsteps : Descends root
      ([hardenedOffset ||| scheme.purpose, hardenedOffset ||| scheme.coinType] ++
        [hardenedOffset ||| p.account]) account := h
  obtain ⟨coinType, -, hchild⟩ := hsteps.exists_parent
  exact ⟨coinType, hchild⟩

/-- The node before that of the address is the one of the change level. -/
theorem exists_change_of_derivePath_eq_ok (h : scheme.derivePath root p = .ok (account, leaf)) :
    ∃ change, Descends root ((scheme.fullPath p).accountIndices ++ [p.change]) change ∧
      leaf.IsChild change p.addressIndex := by
  obtain ⟨-, haccount, hleaf⟩ := derivePath_eq_ok_iff.mp h
  have hall : Descends root
      ((scheme.fullPath p).accountIndices ++ ([p.change] ++ [p.addressIndex])) leaf :=
    descends_append_iff.mpr ⟨account, haccount, hleaf⟩
  rw [← List.append_assoc] at hall
  exact hall.exists_parent

/-- What is interrupted at the account fails like the way as a whole. -/
theorem derivePath_eq_error_iff (h : (scheme.fullPath p).InRange) :
    scheme.derivePath root p = .error e ↔
      Stops root ((scheme.fullPath p).accountIndices ++ (scheme.fullPath p).leafIndices) e := by
  have haccount := (scheme.fullPath p).accountIndices_ne_nil
  have hleaf := (scheme.fullPath p).leafIndices_ne_nil
  have hall := List.append_ne_nil_of_left_ne_nil haccount (scheme.fullPath p).leafIndices
  rw [derivePath_of_inRange h, ← deriveIndices_eq_error_iff hall,
    deriveIndices_append root haccount hleaf]
  simp only [bind_eq_error_iff, pure_ne_error, and_false, exists_false, or_false]

/-- **A path is derived by five steps.**  Whatever the scheme, the node to start from and the path:
if a level is no child number, the first such level is the error, and no child is derived.
Otherwise the five child numbers of the path are derived one below the other, and the error, if
there is one, is that of the first of these steps that fails.  If there is none, the node of the
account is the one that is derived for it alone, and the node of the address is the one that the
five child numbers lead to, five levels below the start, numbered by the address index and with
the fingerprint of the node of the change level; neither of the two is cleared.  Any list of
child numbers can be interrupted anywhere, with the same node or the same error in the end; and
to clear every node that is passed, as soon as its child is derived, changes neither. -/
theorem derivePath_is_five_steps :
    (∀ (scheme : PathScheme) (root : KeyNode) (p : AddressPath),
      (∀ before level value after, (scheme.fullPath p).levels = before ++ (level, value) :: after →
        (∀ earlier ∈ before, earlier.2.toNat < 2 ^ 31) → 2 ^ 31 ≤ value.toNat →
          (scheme.fullPath p).indices = .error (.derivation (.levelOutOfRange level value)) ∧
          scheme.derivePath root p = .error (.derivation (.levelOutOfRange level value))) ∧
      ((∀ level ∈ (scheme.fullPath p).levels, level.2.toNat < 2 ^ 31) →
        ∃ i₁ i₂ i₃ i₄ i₅, (scheme.fullPath p).indices = .ok [i₁, i₂, i₃, i₄, i₅] ∧
          (scheme.derivePath root p = do
            let purpose ← root.derive i₁
            let coinType ← purpose.derive i₂
            let account ← coinType.derive i₃
            let change ← account.derive i₄
            let leaf ← change.derive i₅
            return (account, leaf)) ∧
          ∀ e, scheme.derivePath root p = .error e ↔ Stops root [i₁, i₂, i₃, i₄, i₅] e) ∧
      ∀ account leaf, scheme.derivePath root p = .ok (account, leaf) →
        scheme.deriveAccount root p.account = .ok account ∧
        (∃ indices change, (scheme.fullPath p).indices = .ok indices ∧
          root.deriveIndices indices = .ok leaf ∧
          root.deriveIndices (indices.take 4) = .ok change ∧
          change.fingerprint = .ok leaf.parentFingerprint) ∧
        leaf.depth.toNat = root.depth.toNat + 5 ∧ leaf.childNumber = p.addressIndex ∧
        account.isCleared = false ∧ leaf.isCleared = false) ∧
    (∀ (node : KeyNode) (first rest : List UInt32), first ≠ [] → rest ≠ [] →
      node.deriveIndices (first ++ rest) =
        node.deriveIndices first >>= fun last => last.deriveIndices rest) ∧
    ∀ (node : KeyNode) (indices : List UInt32),
      Prod.fst <$> node.deriveClearing indices = node.deriveIndices indices ∧
      ∀ leaf passed, node.deriveClearing indices = .ok (leaf, passed) →
        passed.length + 1 = indices.length ∧ ∀ earlier ∈ passed, earlier.Cleared := by
  refine ⟨fun scheme root p => ⟨?_, ?_, ?_⟩, ?_, ?_⟩
  · intro before level value after hlevels hbefore hvalue
    have hindices := Bip44Path.indices_of_first_large hlevels hbefore hvalue
    exact ⟨hindices, derivePath_of_indices_eq_error hindices⟩
  · intro hrange
    refine ⟨_, _, _, _, _, Bip44Path.indices_of_inRange hrange, ?_,
      fun e => derivePath_eq_error_iff hrange⟩
    rw [derivePath_of_inRange hrange]
    simp only [Bip44Path.accountIndices, Bip44Path.leafIndices, deriveIndices, List.foldlM_cons,
      List.foldlM_nil, bind_assoc, bind_pure]
  · intro account leaf h
    obtain ⟨hrange, haccount, hleaf⟩ := derivePath_eq_ok_iff.mp h
    obtain ⟨change, hchange, hlast⟩ := exists_change_of_derivePath_eq_ok h
    obtain ⟨coinType, hthird⟩ := exists_parent_of_account haccount
    have hall := descends_append_iff.mpr ⟨account, haccount, hleaf⟩
    refine ⟨deriveAccount_of_derivePath_eq_ok h,
      ⟨_, change, Bip44Path.indices_of_inRange hrange, ?_, ?_, hlast.fingerprint_eq⟩,
      hall.toNat_depth, hlast.childNumber_eq, hthird.live, hlast.live⟩
    · exact (deriveIndices_eq_ok_iff (List.cons_ne_nil _ _)).mpr hall
    · exact (deriveIndices_eq_ok_iff (List.cons_ne_nil _ _)).mpr hchange
  · intro node first rest hfirst hrest
    exact deriveIndices_append node hfirst hrest
  · intro node indices
    exact ⟨fst_deriveClearing node indices, fun leaf passed => cleared_of_deriveClearing⟩

end Keyring.PathScheme
