import Coap.Uri.Options
import Coap.Proofs.Options.Values

/-!
# The pieces of a URI

Host, path segments and query terms are cut out of the text that a URI is read
from, character by character. So none of them takes more bytes than the whole
text, and neither does the value of an option that is made from one of them.

## Main results

* `pieces_of_ofChars` — every text of a URI was cut out of the text that the URI
  was read from.
* `length_value_options_le` — no option that names the resource has a longer
  value than that text, or four bytes.
-/

namespace Coap

theorem Bytes.ofText_ofList (l : List Char) :
    Bytes.ofText (String.ofList l) = l.flatMap String.utf8EncodeChar := by
  have hbytes : (String.ofList l).toUTF8 = l.utf8Encode := String.toByteArray_ofList
  rw [Bytes.ofText, hbytes, List.utf8Encode, List.data_toByteArray]

/-- Leaving characters out makes no text longer. -/
theorem Bytes.length_ofText_le {l cs : List Char} (h : l.Sublist cs) :
    (Bytes.ofText (String.ofList l)).length ≤
      (Bytes.ofText (String.ofList cs)).length := by
  rw [ofText_ofList, ofText_ofList]
  induction h with
  | slnil => exact Nat.le_refl _
  | cons c _ ih =>
      rw [List.flatMap_cons, List.length_append]
      omega
  | cons_cons c _ ih =>
      rw [List.flatMap_cons, List.flatMap_cons, List.length_append,
        List.length_append]
      omega

theorem sublist_of_mem_splitOn {separator : Char} {cs piece : List Char}
    (h : piece ∈ cs.splitOn separator) : piece.Sublist cs := by
  induction cs generalizing piece with
  | nil =>
      rw [List.splitOn_nil, List.mem_singleton] at h
      exact h ▸ List.nil_sublist _
  | cons c rest ih =>
      rw [List.splitOn_cons_eq_if_modifyHead] at h
      split at h
      · rcases List.mem_cons.mp h with rfl | hrest
        · exact List.nil_sublist _
        · exact (ih hrest).cons c
      · cases hsplit : rest.splitOn separator with
        | nil => exact absurd hsplit (List.splitOn_ne_nil separator rest)
        | cons first others =>
            rw [hsplit] at h ih
            rcases List.mem_cons.mp h with rfl | hothers
            · exact (ih List.mem_cons_self).cons_cons c
            · exact (ih (List.mem_cons_of_mem first hothers)).cons c

namespace Uri

/-- A text was cut out of some characters. -/
def CutFrom (cs : List Char) (s : String) : Prop :=
  ∃ l, s = String.ofList l ∧ l.Sublist cs

theorem CutFrom.length_le {cs : List Char} {s : String} (h : CutFrom cs s) :
    (Bytes.ofText s).length ≤ (Bytes.ofText (String.ofList cs)).length := by
  obtain ⟨l, rfl, hsublist⟩ := h
  exact Bytes.length_ofText_le hsublist

theorem cutFrom_of_mem_segments {path : List Char} {s : String}
    (h : s ∈ segments path) : CutFrom path s := by
  unfold segments at h
  have hcut {inner : List Char} (hinner : inner.Sublist path)
      (hs : s ∈ if inner.isEmpty then []
        else (inner.splitOn '/').map String.ofList) : CutFrom path s := by
    split at hs
    · cases hs
    · obtain ⟨l, hl, rfl⟩ := List.mem_map.mp hs
      exact ⟨l, rfl, (sublist_of_mem_splitOn hl).trans hinner⟩
  split at h
  · exact hcut (List.sublist_cons_self _ _) h
  · exact hcut (List.Sublist.refl _) h

theorem cutFrom_of_mem_terms {query : List Char} {s : String}
    (h : s ∈ terms query) : CutFrom query s := by
  obtain ⟨l, hl, rfl⟩ := List.mem_map.mp h
  exact ⟨l, rfl, sublist_of_mem_splitOn (List.mem_filter.mp hl).1⟩

theorem sublist_of_splitHost {rest host after : List Char}
    (h : splitHost rest = .ok (host, after)) :
    host.Sublist rest ∧ after.Sublist rest := by
  unfold splitHost at h
  split at h
  · next inner =>
      split at h
      · cases h
      · next closing tail hdrop =>
          split at h
          · cases h
            have htail : (closing :: after).Sublist inner :=
              hdrop ▸ List.dropWhile_sublist _
            exact ⟨(List.takeWhile_sublist _).cons _,
              ((List.sublist_cons_self _ _).trans htail).cons _⟩
          · cases h
  · cases h
    exact ⟨List.takeWhile_sublist _, List.dropWhile_sublist _⟩

theorem sublist_of_splitPort (rest : List Char) :
    (splitPort rest).2.Sublist rest := by
  unfold splitPort
  split
  · exact (List.dropWhile_sublist _).cons _
  · exact List.Sublist.refl _

/-- Every text of a URI was cut out of the text that the URI was read from. -/
theorem pieces_of_ofChars {cs : List Char} {u : Uri} (h : ofChars cs = .ok u) :
    CutFrom cs u.host ∧ (∀ s ∈ u.path, CutFrom cs s) ∧
      ∀ s ∈ u.query, CutFrom cs s := by
  obtain ⟨scheme, rest, after, hscheme, -, -, hhost, -, -, hpath, hquery⟩ :=
    ofChars_eq_ok.mp h
  have hrest : rest.Sublist cs := by
    rw [splitScheme_eq_some hscheme]
    exact List.sublist_append_right _ _
  obtain ⟨hhostSub, hafterSub⟩ := sublist_of_splitHost hhost
  have hport := ((sublist_of_splitPort after).trans hafterSub).trans hrest
  refine ⟨⟨u.host.toList, String.ofList_toList.symm, hhostSub.trans hrest⟩, ?_, ?_⟩
  · intro s hs
    obtain ⟨l, hl, hsub⟩ := cutFrom_of_mem_segments (hpath ▸ hs)
    exact ⟨l, hl, (hsub.trans (List.takeWhile_sublist _)).trans hport⟩
  · intro s hs
    obtain ⟨l, hl, hsub⟩ := cutFrom_of_mem_terms (hquery ▸ hs)
    exact ⟨l, hl, ((hsub.trans (List.drop_sublist _ _)).trans
      (List.dropWhile_sublist _)).trans hport⟩

end Uri

/-! ## Options -/

theorem Options.mem_ofList {o : MessageOption} {l : List MessageOption} :
    o ∈ (Options.ofList l).toList ↔ o ∈ l := by
  induction l with
  | nil => exact Iff.rfl
  | cons first rest ih =>
      rw [ofList_cons, toList_insert, mem_insertList, ih, List.mem_cons]

theorem Options.mem_merge {o : MessageOption} {s t : Options} :
    o ∈ (s.merge t).toList ↔ o ∈ s.toList ∨ o ∈ t.toList := by
  rw [Options.merge, mem_ofList, List.mem_append]

namespace Uri

/-- No option that names the resource has a value that is longer than the text
of the URI, or than four bytes. -/
theorem length_value_options_le {text : String} {u : Uri}
    (h : ofText text = .ok u) {destination : Option SocketAddress}
    {o : MessageOption} (ho : o ∈ (u.options destination).toList) :
    o.value.length ≤ max (Bytes.ofText text).length 4 := by
  obtain ⟨hhost, hpath, hquery⟩ := pieces_of_ofChars h
  have htext : String.ofList text.toList = text := String.ofList_toList
  have hpiece {number : UInt16} {s : String} (hs : CutFrom text.toList s) :
      (MessageOption.ofText number s).value.length ≤
        max (Bytes.ofText text).length 4 := by
    have hle := hs.length_le
    rw [htext] at hle
    exact Nat.le_trans hle (Nat.le_max_left _ _)
  rw [options, Options.mem_ofList] at ho
  simp only [List.mem_append, List.mem_map] at ho
  rcases ho with ((ho | ho) | ⟨s, hs, rfl⟩) | ⟨s, hs, rfl⟩
  · unfold hostOption at ho
    split at ho
    · cases ho
    · rw [List.mem_singleton.mp ho]
      exact hpiece hhost
  · unfold portOption at ho
    split at ho
    · cases ho
    · rw [List.mem_singleton.mp ho]
      exact Nat.le_trans (MessageOption.length_shortestBytes_le _) (Nat.le_max_right _ _)
  · exact hpiece (hpath s hs)
  · exact hpiece (hquery s hs)

end Uri

end Coap
