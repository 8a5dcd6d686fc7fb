import Mathlib.Data.Set.Function
import TaintPolicy.Proofs.CompactText
import TaintPolicy.Proofs.EntryCodec
import TaintPolicy.Rule.Identity

/-!
# Fingerprints

A fingerprint is taken of the bytes of the compiled entry, and no two entries have the same bytes.
So two rules share a fingerprint only if they compile to one entry or if the digest of one text
collides with that of another.
-/

namespace TaintPolicy

/-- The digits of a text that make a fingerprint. -/
def digestPrefix (s : String) : List Char := (Digest.sha256Hex s).toList.take 16

theorem Rule.entryText_eq_iff {r r' : Rule} :
    r.entryText = r'.entryText ↔ r.toEntry = r'.toEntry := by
  constructor
  · intro h
    exact Entry.toJson_injective (Json.compact_injective h)
  · intro h
    rw [entryText, entryText, h]

theorem Rule.fingerprint_eq_iff {r r' : Rule} :
    r.fingerprint = r'.fingerprint ↔ digestPrefix r.entryText = digestPrefix r'.entryText :=
  String.ofList_inj

/-- A fingerprint tells rules apart as far as the digest tells the texts of their entries apart. -/
theorem fingerprint_identifies_entry :
    (∀ r r' : Rule, r.entryText.toUTF8 = r'.entryText.toUTF8 ↔ r.toEntry = r'.toEntry) ∧
    ∀ texts : Set String, texts.InjOn digestPrefix →
      ∀ r r' : Rule, r.entryText ∈ texts → r'.entryText ∈ texts →
        (r.fingerprint = r'.fingerprint ↔ r.toEntry = r'.toEntry) := by
  refine ⟨fun r r' => ?_, fun texts hd r r' hr hr' => ?_⟩
  · exact String.toByteArray_inj.trans Rule.entryText_eq_iff
  · rw [Rule.fingerprint_eq_iff, hd.eq_iff hr hr', Rule.entryText_eq_iff]

/-- The name of the tool goes on like the entry of another rule. -/
def forgedRule : Rule := .forTool .addTaint "shell\",\"tag\":\"pii"

def imitatedRule : Rule := { Rule.forTool .addTaint "shell" with tag := some "pii" }

theorem fingerprint_identifies_entry_forged :
    forgedRule.toEntry ≠ imitatedRule.toEntry ∧
    forgedRule.entryText.toUTF8 ≠ imitatedRule.entryText.toUTF8 ∧
    forgedRule.fingerprint ≠ imitatedRule.fingerprint := by
  have hne : forgedRule.toEntry ≠ imitatedRule.toEntry := by decide
  have hd : Set.InjOn digestPrefix {forgedRule.entryText, imitatedRule.entryText} := by
    have hdigits : digestPrefix forgedRule.entryText ≠ digestPrefix imitatedRule.entryText := by
      decide +kernel
    exact Set.injOn_pair.mpr fun h => absurd h hdigits
  obtain ⟨hbytes, hdigest⟩ := fingerprint_identifies_entry
  refine ⟨hne, mt (hbytes _ _).mp hne, ?_⟩
  exact mt (hdigest _ hd _ _ (by simp) (by simp)).mp hne

end TaintPolicy
