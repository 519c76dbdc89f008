import KeyLifecycle.Vault
import Mathlib.Data.List.Basic
import Mathlib.Logic.Function.Basic

namespace KeyLifecycle.Vault
variable {v : Vault} {a b secretAlias : String}

def aliases (v : Vault) : List String := v.secrets.map Prod.fst

theorem size_eq (v : Vault) : v.size = v.aliases.length := by simp [size, aliases]

theorem contains_iff : v.contains a = true ↔ a ∈ v.aliases := by
  simp [contains, resolve, aliases, List.lookup_isSome_iff]

theorem aliases_without (a : String) (secrets : List (String × String)) :
    (without a secrets).map Prod.fst = (secrets.map Prod.fst).filter (· != a) := by
  rw [List.filter_map]
  rfl

theorem aliases_store (a secret : String) (v : Vault) :
    (v.store a secret).aliases = a :: v.aliases.filter (· != a) := by
  rw [aliases, store, List.map_cons, aliases_without, aliases]

theorem aliases_delete (a : String) (v : Vault) :
    (v.delete a).2.aliases = v.aliases.filter (· != a) :=
  aliases_without a v.secrets

theorem nodup_store (h : v.aliases.Nodup) (a secret : String) :
    (v.store a secret).aliases.Nodup := by
  rw [aliases_store]
  exact List.nodup_cons.2 ⟨by simp, List.filter_sublist.nodup h⟩

theorem nodup_delete (h : v.aliases.Nodup) (a : String) : (v.delete a).2.aliases.Nodup := by
  rw [aliases_delete]
  exact List.filter_sublist.nodup h

theorem lookup_without (secretAlias a : String) (secrets : List (String × String)) :
    (without secretAlias secrets).lookup a =
      if a = secretAlias then none else secrets.lookup a := by
  induction secrets with
  | nil => simp [without]
  | cons p ps ih =>
    obtain ⟨b, t⟩ := p
    by_cases hb : b = secretAlias
    · have : without secretAlias ((b, t) :: ps) = without secretAlias ps := by
        simp [without, hb]
      rw [this, ih]
      by_cases ha : a = secretAlias
      · simp [ha]
      · have hab : (a == b) = false := by rw [hb]; simpa using ha
        simp [ha, List.lookup_cons, hab]
    · have : without secretAlias ((b, t) :: ps) = (b, t) :: without secretAlias ps := by
        simp [without, hb]
      rw [this, List.lookup_cons, List.lookup_cons, ih]
      by_cases hab : a = b
      · subst hab
        simp [hb]
      · have : (a == b) = false := by simpa using hab
        simp [this]

theorem resolve_store (secret : String) :
    (v.store secretAlias secret).resolve =
      Function.update v.resolve secretAlias (some secret) := by
  funext a
  by_cases ha : a = secretAlias
  · subst ha
    simp [resolve, store]
  · have : (a == secretAlias) = false := by simpa using ha
    simp [resolve, store, List.lookup_cons, this, lookup_without, ha]

theorem resolve_delete :
    (v.delete secretAlias).2.resolve = Function.update v.resolve secretAlias none := by
  funext a
  by_cases ha : a = secretAlias
  · subst ha
    simp [resolve, delete, lookup_without]
  · simp [resolve, delete, lookup_without, ha]

end KeyLifecycle.Vault
