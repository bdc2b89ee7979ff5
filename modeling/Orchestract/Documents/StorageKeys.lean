import Orchestract.Application.Documents
import Orchestract.Library.Numerals

/-!
# Storage keys

The key of an upload names its document and its version number, whatever the filename.
-/

namespace Orchestract.DocumentService

set_option autoImplicit false

theorem storageKey_toList (contract : Contract) (document : Document) (filename : String) :
    (storageKey contract document filename).toList =
      "org-".toList ++ (Nat.toDigits 10 contract.organizationId ++ '/' :: ("contract-".toList ++
        (Nat.toDigits 10 contract.id ++ '/' :: ("doc-".toList ++ (Nat.toDigits 10 document.id ++ '/' ::
          ("v".toList ++ (Nat.toDigits 10 (document.currentVersionNo + 1) ++ '-' ::
            (safeFilename filename).toList))))))) := by
  unfold storageKey
  simp [toString, String.toList_append]

theorem storageKey_inj {contract contract' : Contract} {document document' : Document}
    {filename filename' : String}
    (h : storageKey contract document filename = storageKey contract' document' filename') :
    contract.organizationId = contract'.organizationId ∧ contract.id = contract'.id ∧
      document.id = document'.id ∧ document.currentVersionNo = document'.currentVersionNo ∧
        safeFilename filename = safeFilename filename' := by
  have htext := congrArg String.toList h
  rw [storageKey_toList, storageKey_toList] at htext
  obtain ⟨horg, _, htext⟩ := Numerals.toDigits_append_inj (by decide) (by decide)
    (List.append_cancel_left htext)
  obtain ⟨hcontract, _, htext⟩ := Numerals.toDigits_append_inj (by decide) (by decide)
    (List.append_cancel_left htext)
  obtain ⟨hdocument, _, htext⟩ := Numerals.toDigits_append_inj (by decide) (by decide)
    (List.append_cancel_left htext)
  obtain ⟨hversion, _, hname⟩ := Numerals.toDigits_append_inj (by decide) (by decide)
    (List.append_cancel_left htext)
  exact ⟨horg, hcontract, hdocument, by omega, String.toList_inj.mp hname⟩

end Orchestract.DocumentService
