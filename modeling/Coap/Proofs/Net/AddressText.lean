import Coap.Proofs.Text.Delimiters
import Coap.Proofs.Text.Numerals
import Coap.Net.Ip

/-!
# The text of an IP address is read as that address

Each address has one written form, and the readers know more forms than that one. So
reading undoes writing, while writing does not undo reading: what is lost in
between is the spelling of an address, never the address.

An IPv6 address is written in one of three ways. With a run of zero groups left out,
the two colons of the gap are the first two in a row, as a group is written with at
least one digit and no colon; `longestZeroRun` may leave out any run, as long as
there are zero groups where it says so. Without a gap all eight groups stand in the
text. An address mapped from IPv4 has a gap and a dotted end.

## Main results

* `Ipv4.ofChars?_text`, `Ipv6.ofChars?_text` — for each family.
* `IpAddress.ofText?_text` — for either family: no text is of both.
-/

namespace Coap

/-! ## IPv4 -/

namespace Ipv4

theorem toList_text (ip : Ipv4) :
    ip.text.toList = ['.'].intercalate
      ([ip.a, ip.b, ip.c, ip.d].map fun x => Nat.toDigits 10 x.toNat) := by
  simp [text]

theorem part?_toDigits (x : UInt8) : part? (Nat.toDigits 10 x.toNat) = some x := by
  have hlt := x.toNat_lt
  have hlength : (Nat.toDigits 10 x.toNat).length ≤ 3 := by
    rw [Nat.length_toDigits_le_iff (by omega) (by omega)]
    omega
  have hhead : (Nat.toDigits 10 x.toNat).head? ≠ some '0' ∨
      (Nat.toDigits 10 x.toNat).length = 1 := by
    by_cases hpos : 0 < x.toNat
    · exact .inl (Text.head?_toDigits_ne (by omega) (by omega) hpos)
    · right
      rw [Nat.toDigits_of_lt_base (by omega)]
      simp
  rw [part?, if_pos ⟨hlength, hhead⟩, Text.readNat?_toDigits (by omega) (by omega)]
  dsimp only
  rw [if_pos (by omega), UInt8.ofNat_toNat]

/-- The text of an IPv4 address is read as the address. -/
theorem ofChars?_text (ip : Ipv4) : ofChars? ip.text.toList = some ip := by
  have hsplit : ip.text.toList.splitOn '.' =
      [ip.a, ip.b, ip.c, ip.d].map fun x => Nat.toDigits 10 x.toNat := by
    rw [toList_text]
    apply List.splitOn_intercalate
    · intro l hl
      obtain ⟨x, -, rfl⟩ := List.mem_map.mp hl
      exact Text.notMem_toDigits (by omega) (by omega) (by decide) _
    · simp
  rw [ofChars?, hsplit]
  simp [part?_toDigits]

theorem digitValue_lt_of_part? {cs : List Char} {x : UInt8} (h : part? cs = some x)
    {c : Char} (hc : c ∈ cs) : Text.digitValue c < 10 := by
  unfold part? at h
  split at h
  · cases hread : Text.readNat? 10 cs with
    | none => simp [hread] at h
    | some n => exact Text.digitValue_lt_of_readNat? hread hc
  · cases h

/-- What is read as an IPv4 address consists of points and digits. -/
theorem eq_point_or_digit_of_ofChars? {cs : List Char} {ip : Ipv4}
    (h : ofChars? cs = some ip) {c : Char} (hc : c ∈ cs) :
    c = '.' ∨ Text.digitValue c < 10 := by
  have hjoined : ['.'].intercalate (cs.splitOn '.') = cs := List.intercalate_splitOn '.'
  unfold ofChars? at h
  split at h
  · next a b c' d hsplit =>
      rw [hsplit] at hjoined
      rw [← hjoined] at hc
      rcases mem_intercalate_singleton hc with hpoint | ⟨piece, hpiece, hmem⟩
      · exact .inl hpoint
      · right
        simp only [Option.pure_def, Option.bind_eq_bind, Option.bind_eq_some_iff] at h
        obtain ⟨x, hx, y, hy, z, hz, w, hw, -⟩ := h
        simp only [List.mem_cons, List.not_mem_nil, or_false] at hpiece
        rcases hpiece with rfl | rfl | rfl | rfl
        · exact digitValue_lt_of_part? hx hmem
        · exact digitValue_lt_of_part? hy hmem
        · exact digitValue_lt_of_part? hz hmem
        · exact digitValue_lt_of_part? hw hmem
  · cases h

theorem colon_notMem_of_ofChars? {cs : List Char} {ip : Ipv4}
    (h : ofChars? cs = some ip) : ':' ∉ cs := by
  intro hmem
  rcases eq_point_or_digit_of_ofChars? h hmem with hpoint | hdigit
  · exact absurd hpoint (by decide)
  · exact absurd hdigit (by decide)

theorem point_mem_text (ip : Ipv4) : '.' ∈ ip.text.toList := by
  simp [text]

end Ipv4

/-! ## IPv6 -/

namespace Ipv6

/-- A group in hexadecimal. -/
def groupDigits (g : UInt16) : List Char := Nat.toDigits 16 g.toNat

theorem groupDigits_ne_nil (g : UInt16) : groupDigits g ≠ [] := Nat.toDigits_ne_nil

theorem colon_notMem_groupDigits (g : UInt16) : ':' ∉ groupDigits g :=
  Text.notMem_toDigits (by omega) (by omega) (by decide) _

theorem toList_groupsText (groups : List UInt16) :
    (groupsText groups).toList = [':'].intercalate (groups.map groupDigits) := by
  simp only [groupsText, String.toList_intercalate, List.map_map, Function.comp_def,
    String.toList_ofList]
  rfl

theorem toList_groupsText_singleton (g : UInt16) :
    (groupsText [g]).toList = groupDigits g := by
  simp [toList_groupsText]

theorem toList_groupsText_cons_cons (first second : UInt16) (more : List UInt16) :
    (groupsText (first :: second :: more)).toList =
      groupDigits first ++ ':' :: (groupsText (second :: more)).toList := by
  simp [toList_groupsText, List.intercalate_cons_cons]

theorem head?_groupsText (g : UInt16) (groups : List UInt16) :
    (groupsText (g :: groups)).toList.head? = (groupDigits g).head? := by
  have hne := groupDigits_ne_nil g
  cases groups with
  | nil => rw [toList_groupsText_singleton]
  | cons second more =>
      rw [toList_groupsText_cons_cons]
      cases hdigits : groupDigits g with
      | nil => contradiction
      | cons c rest => simp

/-! ### Groups -/

theorem group?_groupDigits (g : UInt16) : group? (groupDigits g) = some g := by
  have hlt := g.toNat_lt
  have hlength : (groupDigits g).length ≤ 4 := by
    rw [groupDigits, Nat.length_toDigits_le_iff (by omega) (by omega)]
    omega
  rw [group?, if_pos hlength, groupDigits, Text.readNat?_toDigits (by omega) (by omega)]
  simp

theorem groupsOfParts?_groupDigits (dotted : Bool) (groups : List UInt16) :
    groupsOfParts? dotted (groups.map groupDigits) = some groups := by
  induction groups with
  | nil => simp [groupsOfParts?]
  | cons first others ih =>
      cases others with
      | nil => simp [groupsOfParts?, group?_groupDigits]
      | cons second more =>
          rw [List.map_cons] at ih
          simp [groupsOfParts?, group?_groupDigits, ih]

theorem groups?_groupsText (dotted : Bool) (groups : List UInt16) :
    groups? dotted (groupsText groups).toList = some groups := by
  rw [toList_groupsText]
  by_cases hnil : groups = []
  · simp [hnil, groups?]
  · have hsplit : ([':'].intercalate (groups.map groupDigits)).splitOn ':' =
        groups.map groupDigits := by
      apply List.splitOn_intercalate
      · simpa using fun g _ => colon_notMem_groupDigits g
      · simpa using hnil
    have hnonempty : [':'].intercalate (groups.map groupDigits) ≠ [] := by
      intro hempty
      rw [hempty, List.splitOn_nil] at hsplit
      have hmem : [] ∈ groups.map groupDigits := by simp [← hsplit]
      obtain ⟨g, -, hg⟩ := List.mem_map.mp hmem
      exact groupDigits_ne_nil g hg
    rw [groups?, hsplit, groupsOfParts?_groupDigits]
    simp [hnonempty]

/-! ### The gap -/

theorem splitGap_cons_of_ne {c : Char} (hc : c ≠ ':') (rest : List Char) :
    splitGap (c :: rest) = (splitGap rest).map fun (front, back) => (c :: front, back) := by
  rw [splitGap]
  intro rest' heq
  simp_all

theorem splitGap_colon_of_head? {rest : List Char} (h : rest.head? ≠ some ':') :
    splitGap (':' :: rest) =
      (splitGap rest).map fun (front, back) => (':' :: front, back) := by
  rw [splitGap]
  rintro rest' - rfl
  simp at h

theorem splitGap_append_of_notMem {front : List Char} (h : ':' ∉ front)
    (rest : List Char) :
    splitGap (front ++ rest) = (splitGap rest).map fun p => (front ++ p.1, p.2) := by
  induction front with
  | nil => simp
  | cons c others ih =>
      simp only [List.mem_cons, not_or] at h
      rw [List.cons_append, splitGap_cons_of_ne (Ne.symm h.1), ih h.2, Option.map_map]
      rfl

/-- The gap is not among the groups in front of it. -/
theorem splitGap_groupsText_append (groups : List UInt16) (rest : List Char) :
    splitGap ((groupsText groups).toList ++ rest) =
      (splitGap rest).map fun p => ((groupsText groups).toList ++ p.1, p.2) := by
  induction groups with
  | nil => simp [toList_groupsText]
  | cons first others ih =>
      have hfirst := splitGap_append_of_notMem (colon_notMem_groupDigits first)
      cases others with
      | nil =>
          rw [toList_groupsText_singleton]
          exact hfirst rest
      | cons second more =>
          -- Behind the colon stands the first digit of the next group.
          have hhead : ((groupsText (second :: more)).toList ++ rest).head? ≠
              some ':' := by
            have hcolon := colon_notMem_groupDigits second
            have hdigits := head?_groupsText second more
            cases hgroup : groupDigits second with
            | nil => exact absurd hgroup (groupDigits_ne_nil second)
            | cons c digits =>
                rw [hgroup] at hcolon hdigits
                have hc : c ≠ ':' := by
                  rintro rfl
                  simp at hcolon
                simp [List.head?_append, hdigits, hc]
          rw [toList_groupsText_cons_cons, List.append_assoc, List.cons_append, hfirst,
            splitGap_colon_of_head? hhead, ih, Option.map_map, Option.map_map]
          simp [Function.comp_def]

theorem splitGap_groupsText (groups : List UInt16) :
    splitGap (groupsText groups).toList = none := by
  have h := splitGap_groupsText_append groups []
  simpa [splitGap] using h

theorem splitGap_gap (front : List UInt16) (back : List Char) :
    splitGap ((groupsText front).toList ++ ':' :: ':' :: back) =
      some ((groupsText front).toList, back) := by
  rw [splitGap_groupsText_append]
  simp [splitGap]

theorem zeroRun_le (groups : List UInt16) : zeroRun groups ≤ groups.length :=
  (List.takeWhile_sublist _).length_le

theorem take_of_le_zeroRun {groups : List UInt16} {count : Nat}
    (h : count ≤ zeroRun groups) : groups.take count = List.replicate count 0 := by
  rw [List.eq_replicate_iff]
  have hle := zeroRun_le groups
  constructor
  · rw [List.length_take]
    omega
  · intro g hg
    have hleading : groups.takeWhile (· == 0) = groups.take (zeroRun groups) :=
      List.prefix_iff_eq_take.mp (List.takeWhile_prefix _)
    have hmem : g ∈ groups.takeWhile (· == 0) := by
      rw [hleading]
      exact (List.take_sublist_take_left h).subset hg
    have hall := List.all_takeWhile (p := (· == 0)) (l := groups)
    simpa using List.all_eq_true.mp hall g hmem

/-- Where a run is found, there are that many zero groups. -/
theorem longestZeroRun_le (groups : List UInt16) :
    (longestZeroRun groups).2 ≤ zeroRun (groups.drop (longestZeroRun groups).1) := by
  have hfold (positions : List Nat) (best : Nat × Nat)
      (hbest : best.2 ≤ zeroRun (groups.drop best.1)) :
      let found := positions.foldl
        (fun best i =>
          let n := zeroRun (groups.drop i)
          if best.2 < n then (i, n) else best) best
      found.2 ≤ zeroRun (groups.drop found.1) := by
    induction positions generalizing best with
    | nil => exact hbest
    | cons i others ih =>
        rw [List.foldl_cons]
        apply ih
        dsimp only
        split
        · exact Nat.le_refl _
        · exact hbest
  exact hfold _ (0, 0) (Nat.zero_le _)

/-- An address is made up of its groups before and behind a run of zero groups. -/
theorem expand_drop (ip : Ipv6) {start count : Nat} (hcount : 1 < count)
    (hrun : count ≤ zeroRun (ip.groups.drop start)) :
    expand (ip.groups.take start) (ip.groups.drop (start + count)) = some ip := by
  have hlength := ip.length_eq
  have hle := zeroRun_le (ip.groups.drop start)
  rw [List.length_drop, hlength] at hle
  have hmiss : (ip.groups.take start).length + (ip.groups.drop (start + count)).length =
      8 - count := by
    rw [List.length_take, List.length_drop, hlength]
    omega
  have hgroups : ip.groups.take start ++ List.replicate count 0 ++
      ip.groups.drop (start + count) = ip.groups := by
    calc
      _ = ip.groups.take start ++ ((ip.groups.drop start).take count ++
            (ip.groups.drop start).drop count) := by
        rw [take_of_le_zeroRun hrun, List.drop_drop, List.append_assoc]
      _ = ip.groups := by
        rw [List.take_append_drop, List.take_append_drop]
  rw [expand, dif_pos (by omega)]
  congr 1
  rcases ip with ⟨groups, hlen⟩
  simp only [Ipv6.mk.injEq]
  rw [hmiss, show 8 - (8 - count) = count by omega]
  exact hgroups

/-! ### The three forms -/

theorem group?_eq_none_of_point {cs : List Char} (h : '.' ∈ cs) : group? cs = none := by
  have hread : Text.readNat? 16 cs = none := by
    cases hread : Text.readNat? 16 cs with
    | none => rfl
    | some n =>
        have hlt := Text.digitValue_lt_of_readNat? hread h
        exact absurd hlt (by decide)
  simp [group?, hread]

theorem ofChars?_mapped (high low : UInt16) :
    ofChars? ("::ffff:" ++ (lastIpv4 high low).text).toList =
      expand [] [0xFFFF, high, low] := by
  have hsplit : ("ffff:" ++ (lastIpv4 high low).text).toList.splitOn ':' =
      [['f', 'f', 'f', 'f'], (lastIpv4 high low).text.toList] := by
    have hjoin : ("ffff:" ++ (lastIpv4 high low).text).toList =
        [':'].intercalate [['f', 'f', 'f', 'f'], (lastIpv4 high low).text.toList] := by
      simp
    rw [hjoin]
    apply List.splitOn_intercalate
    · simp [Ipv4.colon_notMem_of_ofChars? (Ipv4.ofChars?_text _)]
    · simp
  have hwords : [Bytes.join16 (lastIpv4 high low).a (lastIpv4 high low).b,
      Bytes.join16 (lastIpv4 high low).c (lastIpv4 high low).d] = [high, low] := by
    simp only [lastIpv4, Bytes.join16_split]
  have hback : groups? true ("ffff:" ++ (lastIpv4 high low).text).toList =
      some [0xFFFF, high, low] := by
    have hword : group? ['f', 'f', 'f', 'f'] = some 0xFFFF := by decide
    have hnonempty : ("ffff:" ++ (lastIpv4 high low).text).toList.isEmpty = false := by
      simp
    rw [groups?, hnonempty, hsplit]
    simp only [Bool.false_eq_true, if_false, groupsOfParts?, hword,
      group?_eq_none_of_point (Ipv4.point_mem_text _), Ipv4.ofChars?_text, if_true,
      Option.map_some, hwords]
    rfl
  have hgap : splitGap ("::ffff:" ++ (lastIpv4 high low).text).toList =
      some ([], ("ffff:" ++ (lastIpv4 high low).text).toList) := by
    simp [splitGap]
  rw [ofChars?, hgap]
  simp only [hback]
  simp [groups?]

theorem ofChars?_gap (front back : List UInt16) :
    ofChars? (groupsText front ++ "::" ++ groupsText back).toList = expand front back := by
  have htext : (groupsText front ++ "::" ++ groupsText back).toList =
      (groupsText front).toList ++ ':' :: ':' :: (groupsText back).toList := by
    simp
  rw [htext, ofChars?, splitGap_gap]
  simp [groups?_groupsText]

theorem ofChars?_full (groups : List UInt16) :
    ofChars? (groupsText groups).toList = ofGroups? groups := by
  rw [ofChars?, splitGap_groupsText]
  simp [groups?_groupsText]

/-- The text of an IPv6 address is read as the address. -/
theorem ofChars?_text (ip : Ipv6) : ofChars? ip.text.toList = some ip := by
  unfold text
  split
  · next high low hgroups =>
      rw [ofChars?_mapped]
      rcases ip with ⟨groups, hlength⟩
      subst hgroups
      rfl
  · by_cases hcount : 1 < (longestZeroRun ip.groups).2
    · simp only [hcount, if_true]
      rw [ofChars?_gap]
      exact expand_drop ip hcount (longestZeroRun_le ip.groups)
    · simp only [hcount, if_false]
      rw [ofChars?_full]
      simp [ofGroups?, ip.length_eq]

/-- What is read as an IPv6 address contains a colon. -/
theorem colon_mem_of_ofChars? {cs : List Char} {ip : Ipv6} (h : ofChars? cs = some ip) :
    ':' ∈ cs := by
  by_contra hcolon
  have hgap : splitGap cs = none := by
    have happend := splitGap_append_of_notMem hcolon []
    simpa [splitGap] using happend
  rw [ofChars?, hgap] at h
  simp only [Option.bind_eq_bind, Option.bind_eq_some_iff] at h
  obtain ⟨groups, hgroups, hall⟩ := h
  -- One part stands for two groups at most.
  have hfew : groups.length ≤ 2 := by
    unfold groups? at hgroups
    split at hgroups
    · cases hgroups
      simp
    · rw [List.splitOn_eq_singleton hcolon, groupsOfParts?] at hgroups
      split at hgroups
      · cases hgroups
        simp
      · simp only [if_true, Option.map_eq_some_iff] at hgroups
        obtain ⟨v4, -, rfl⟩ := hgroups
        simp
  unfold ofGroups? at hall
  split at hall
  · omega
  · cases hall

end Ipv6

/-! ## Either family -/

namespace IpAddress

/-- The text of an IP address is read as the address. -/
theorem ofText?_text (ip : IpAddress) : ofText? ip.text = some ip := by
  cases ip with
  | v4 ip => simp [ofText?, text, Ipv4.ofChars?_text]
  | v6 ip =>
      have hcolon := Ipv6.colon_mem_of_ofChars? (Ipv6.ofChars?_text ip)
      have hv4 : Ipv4.ofChars? ip.text.toList = none := by
        cases hread : Ipv4.ofChars? ip.text.toList with
        | none => rfl
        | some v4 => exact absurd hcolon (Ipv4.colon_notMem_of_ofChars? hread)
      simp [ofText?, text, hv4, Ipv6.ofChars?_text]

end IpAddress

end Coap
