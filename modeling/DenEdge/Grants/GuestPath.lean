import DenEdge.Base.Json

/-!
# Guest paths

`percentDecode` and `parseGuestPath` over the characters of a path. A pair after `%` is read as a number, so a
sign is read where a digit should stand: `%+5` decodes (`signed_escape_is_decoded`). Those are the only texts and
the only accepted paths that are not decoded as the RFC says (`guest_paths_decode`).
-/

namespace DenEdge.Grants.Guest

abbrev Text : Type := List Char

/-- One more digit of a `u8`. -/
def push (n : ℕ) (c : Char) : Option ℕ :=
  (Json.hexValue c).bind fun d => if 16 * n + d < 256 then some (16 * n + d) else none

/-- `u8::from_str_radix(_, 16)`. -/
def fromStrRadix : Text → Option ℕ
  | [] | ['+'] => none
  | '+' :: digits => digits.foldlM push 0
  | digits => digits.foldlM push 0

/-- The two bytes after a `%` are two characters, or their text is no number. -/
def percentDecode : Text → Option (List UInt8)
  | [] => some []
  | '%' :: a :: b :: rest =>
    if a.utf8Size = 1 ∧ b.utf8Size = 1 then do
      let byte ← fromStrRadix [a, b]
      return UInt8.ofNat byte :: (← percentDecode rest)
    else none
  | '%' :: _ => none
  | c :: rest => (String.utf8EncodeChar c ++ ·) <$> percentDecode rest

def ADDONS : List Text := ["den", "scout", "atlas", "reel", "subtitles"].map String.toList

/-- Of the text's bytes. -/
def validGid (s : List UInt8) : Bool := s.length = 8 && s.all fun b => (48 ≤ b && b ≤ 57) || (97 ≤ b && b ≤ 102)

structure GuestPath where
  addon : Text
  gid : List UInt8
  rest : Text
  deriving DecidableEq

/-- What may stand between the slashes of the rest. -/
def clean (d : List UInt8) : Bool := d ≠ [46, 46] && d ≠ [46] && !d.any fun b => b = 47 || b = 92 || b = 0

def notSlash (c : Char) : Bool := c ≠ '/'

def parseGuestPath : Text → Option (Except Unit GuestPath)
  | '/' :: path =>
    match path.dropWhile notSlash with
    | [] => none
    | _ :: tail => do
      -- `den` is one of them
      let addon ← ADDONS.find? (· = path.takeWhile notSlash)
      let rest := tail.dropWhile notSlash
      match percentDecode (tail.takeWhile notSlash) with
      | none => some (.error ())
      | some decoded =>
        if decoded.head? ≠ some 126 then none
        else if validGid decoded.tail && (rest.splitOn '/').all fun s => (percentDecode s).any clean then
          some (.ok ⟨addon, decoded.tail, rest⟩)
        else some (.error ())
  | _ => none

/-! ## As the RFC has it -/

def HexDigit (c : Char) : Prop := (Json.hexValue c).isSome

/-- Every `%` is followed by a character that meets `P` and a hexadecimal digit. -/
def Pairs (P : Char → Prop) (s : Text) : Prop :=
  ∀ i : ℕ, s[i]? = some '%' → ∃ a b, s[i + 1]? = some a ∧ s[i + 2]? = some b ∧ P a ∧ HexDigit b

/-- Every `%` is followed by two hexadecimal digits. -/
def Decodes (s : Text) : Prop := Pairs HexDigit s

/-- Every `%` is followed by two hexadecimal digits, or by a sign and one. -/
def Reads (s : Text) : Prop := Pairs (fun a => a = '+' ∨ HexDigit a) s

/-- The text with every such triple replaced by its byte. -/
def bytes : Text → List UInt8
  | [] => []
  | '%' :: a :: b :: rest => UInt8.ofNat (16 * (Json.hexValue a).getD 0 + (Json.hexValue b).getD 0) :: bytes rest
  | c :: rest => String.utf8EncodeChar c ++ bytes rest

/-- No `%` is followed by a sign and a digit. -/
def Unsigned (s : Text) : Prop := ∀ c, HexDigit c → ¬ ['%', '+', c] <:+: s

/-- The text is refused exactly when some `%` is not followed by two digits, and is otherwise decoded triple by
triple. -/
def RfcDecoded (s : Text) : Prop :=
  (percentDecode s = none ↔ ¬ Decodes s) ∧ (Decodes s → percentDecode s = some (bytes s))

/-- The path is an addon, a segment that decodes to `~` and eight lowercase digits, and a rest each segment of
which decodes to something other than one or two dots, without a slash, a backslash or a zero byte. -/
def RfcParsed (path : Text) (p : GuestPath) : Prop :=
  ∃ segment, path = '/' :: (p.addon ++ '/' :: (segment ++ p.rest)) ∧ '/' ∉ segment ∧
    (∀ c ∈ p.rest.head?, c = '/') ∧
    (Decodes segment ∧ ∃ digits, bytes segment = 126 :: digits ∧ digits.length = 8 ∧
      ∀ b ∈ digits, 48 ≤ b ∧ b ≤ 57 ∨ 97 ≤ b ∧ b ≤ 102) ∧
    ∀ s ∈ p.rest.splitOn '/', Decodes s ∧ bytes s ≠ [46] ∧ bytes s ≠ [46, 46] ∧
      ∀ b ∈ bytes s, b ≠ 47 ∧ b ≠ 92 ∧ b ≠ 0

variable {c a b : Char} {s t rest : Text} {P : Char → Prop}

theorem Unsigned.of_infix (h : Unsigned t) (hst : s <:+: t) : Unsigned s := by
  intro c hc hin
  exact h c hc (hin.trans hst)

theorem hexValue_spec {d : ℕ} (h : Json.hexValue c = some d) : d < 16 ∧ c.utf8Size = 1 ∧ c ≠ '%' := by
  have hrange : d < 16 ∧ c.toNat < 128 ∧ 48 ≤ c.toNat := by
    unfold Json.hexValue at h
    split_ifs at h <;> cases h <;> omega
  have hval : c.val.toNat < 128 := hrange.2.1
  refine ⟨hrange.1, ?_, ?_⟩
  · rw [Char.utf8Size_eq_one_iff]
    exact Nat.lt_succ_iff.mp hval
  · rintro rfl
    exact absurd hrange.2.2 (by decide)

theorem HexDigit.utf8Size (h : HexDigit c) : c.utf8Size = 1 ∧ c ≠ '%' := by
  obtain ⟨d, hd⟩ := Option.isSome_iff_exists.mp h
  exact (hexValue_spec hd).2

theorem push_eq {n : ℕ} (hn : n < 16) (c : Char) : push n c = (Json.hexValue c).map (16 * n + ·) := by
  unfold push
  cases hc : Json.hexValue c with
  | none => rfl
  | some d =>
    have hd := (hexValue_spec hc).1
    exact if_pos (by omega)

/-- A pair is read as two digits, a sign in the place of the first as zero. -/
theorem fromStrRadix_pair : fromStrRadix [a, b] =
    (if a = '+' then some 0 else Json.hexValue a).bind fun x => (Json.hexValue b).map (16 * x + ·) := by
  by_cases ha : a = '+'
  · subst ha
    have hpush := push_eq (by decide : 0 < 16) b
    simpa [fromStrRadix] using hpush
  · have hdigits : fromStrRadix [a, b] = (push 0 a).bind (push · b) := by simp [fromStrRadix, ha]
    rw [hdigits, if_neg ha, push_eq (by decide)]
    cases hx : Json.hexValue a with
    | none => rfl
    | some x =>
      have hpush := push_eq (hexValue_spec hx).1 b
      simpa using hpush

theorem pairs_cons : Pairs P (c :: rest) ↔
    (c = '%' → ∃ a b, rest[0]? = some a ∧ rest[1]? = some b ∧ P a ∧ HexDigit b) ∧ Pairs P rest := by
  unfold Pairs
  rw [← Nat.and_forall_add_one]
  simp

/-- A `%`, two characters and the rest. -/
theorem pairs_triple (hP : ¬ P '%') : Pairs P ('%' :: a :: b :: rest) ↔ P a ∧ HexDigit b ∧ Pairs P rest := by
  rw [pairs_cons, pairs_cons, pairs_cons]
  constructor
  · rintro ⟨hpair, -, -, hrest⟩
    obtain ⟨x, y, hx, hy, ha, hb⟩ := hpair rfl
    cases hx
    cases hy
    exact ⟨ha, hb, hrest⟩
  · rintro ⟨ha, hb, hrest⟩
    refine ⟨fun _ => ⟨a, b, rfl, rfl, ha, hb⟩, ?_, fun heq => absurd heq hb.utf8Size.2, hrest⟩
    rintro rfl
    exact absurd ha hP

theorem reads_triple : Reads ('%' :: a :: b :: rest) ↔ (a = '+' ∨ HexDigit a) ∧ HexDigit b ∧ Reads rest := by
  refine pairs_triple ?_
  rintro (heq | hhex)
  · cases heq
  · exact hhex.utf8Size.2 rfl

/-- **What is decoded is what reads**, a sign as zero: a text that reads decodes to its bytes, any other is
refused. -/
theorem percentDecode_spec (s : Text) :
    Reads s ∧ percentDecode s = some (bytes s) ∨ ¬ Reads s ∧ percentDecode s = none := by
  fun_induction percentDecode s with
  | case1 => exact .inl ⟨fun i hi => by simp at hi, rfl⟩
  | case2 a b rest hsize ih =>
    rw [reads_triple, fromStrRadix_pair]
    -- the first character is worth what `bytes` says, if it is a sign or a digit
    have hfirst : (a = '+' ∨ HexDigit a) ∧
        (if a = '+' then some 0 else Json.hexValue a) = some ((Json.hexValue a).getD 0) ∨
        ¬ (a = '+' ∨ HexDigit a) ∧ (if a = '+' then some 0 else Json.hexValue a) = none := by
      by_cases ha : a = '+'
      · exact .inl ⟨.inl ha, by rw [if_pos ha, ha]; rfl⟩
      · cases hx : Json.hexValue a <;> simp [ha, hx, HexDigit]
    rcases hfirst with ⟨ha, hx⟩ | ⟨ha, hx⟩
    · rw [hx]
      cases hy : Json.hexValue b with
      | none => exact .inr ⟨by simp [HexDigit, hy], rfl⟩
      | some y =>
        have hb : HexDigit b := by simp [HexDigit, hy]
        rcases ih with ⟨hrest, hd⟩ | ⟨hrest, hd⟩
        · exact .inl ⟨⟨ha, hb, hrest⟩, by simp [hd, bytes, hy]⟩
        · exact .inr ⟨fun h => hrest h.2.2, by simp [hd]⟩
    · rw [hx]
      exact .inr ⟨fun h => ha h.1, rfl⟩
  | case3 a b rest hsize =>
    refine .inr ⟨fun hreads => hsize ?_, rfl⟩
    obtain ⟨ha, hb, -⟩ := reads_triple.mp hreads
    refine ⟨?_, hb.utf8Size.1⟩
    rcases ha with rfl | ha
    · rfl
    · exact ha.utf8Size.1
  | case4 rest hshort =>
    refine .inr ⟨fun hreads => ?_, rfl⟩
    obtain ⟨a, b, ha, hb, -⟩ := (pairs_cons.mp hreads).1 rfl
    cases rest with
    | nil => cases ha
    | cons x more =>
      cases more with
      | nil => cases hb
      | cons y more => exact hshort x y more rfl
  | case5 c rest hc hc' ih =>
    have hne : c ≠ '%' := hc'
    have hcons : Reads (c :: rest) ↔ Reads rest := by simp [Reads, pairs_cons, hne]
    rw [hcons, bytes]
    · rcases ih with ⟨hrest, hd⟩ | ⟨hrest, hd⟩
      · exact .inl ⟨hrest, by simp [hd]⟩
      · exact .inr ⟨hrest, by simp [hd]⟩
    · exact hc

theorem percentDecode_some {d : List UInt8} (h : percentDecode s = some d) : Reads s ∧ bytes s = d := by
  rcases percentDecode_spec s with ⟨hreads, heq⟩ | ⟨-, heq⟩
  · exact ⟨hreads, Option.some.inj (heq.symm.trans h)⟩
  · rw [h] at heq
    cases heq

/-- The texts that decode are those that read, without a sign for a digit. -/
theorem decodes_iff : Decodes s ↔ Reads s ∧ Unsigned s := by
  constructor
  · refine fun h => ⟨fun i hi => ?_, ?_⟩
    · obtain ⟨a, b, ha, hb, hpair⟩ := h i hi
      exact ⟨a, b, ha, hb, .inr hpair.1, hpair.2⟩
    · rintro c - ⟨l, r, rfl⟩
      obtain ⟨a, b, ha, -, hhex, -⟩ := h l.length (by simp)
      have hplus : a = '+' := by simpa using ha.symm
      subst hplus
      exact absurd hhex (by unfold HexDigit; decide)
  · rintro ⟨hreads, hunsigned⟩ i hi
    obtain ⟨a, b, ha, hb, hfirst, hsecond⟩ := hreads i hi
    refine ⟨a, b, ha, hb, hfirst.resolve_left ?_, hsecond⟩
    rintro rfl
    refine hunsigned b hsecond (List.infix_iff_getElem?.mpr ⟨i, ?_, fun j hj => ?_⟩)
    · have hlt := (List.getElem?_eq_some_iff.mp hb).1
      simp only [List.length_cons, List.length_nil]
      omega
    · match j with
      | 0 => simpa using hi
      | 1 => simpa [Nat.add_comm] using ha
      | 2 => simpa [Nat.add_comm] using hb

/-- **A text is decoded as the RFC says exactly when** no sign stands for a digit in it, or some `%` of it reads
as nothing at all. -/
theorem rfcDecoded_iff : RfcDecoded s ↔ Unsigned s ∨ ¬ Reads s := by
  have hiff := decodes_iff (s := s)
  rcases percentDecode_spec s with ⟨hreads, hd⟩ | ⟨hreads, hd⟩
  · have hsame : Decodes s ↔ Unsigned s := by rw [hiff]; exact and_iff_right hreads
    simp [RfcDecoded, hd, hreads, hsame]
  · have hnot : ¬ Decodes s := fun h => hreads (hiff.mp h).1
    simp [RfcDecoded, hd, hreads, hnot]

theorem Decodes.append (hs : Decodes s) (ht : Decodes t) : Decodes (s ++ t) := by
  intro i hi
  by_cases hlt : i < s.length
  · rw [List.getElem?_append_left hlt] at hi
    obtain ⟨a, b, ha, hb, hpair⟩ := hs i hi
    refine ⟨a, b, ?_, ?_, hpair⟩
    · rw [List.getElem?_append_left (List.getElem?_eq_some_iff.mp ha).1, ha]
    · rw [List.getElem?_append_left (List.getElem?_eq_some_iff.mp hb).1, hb]
  · rw [not_lt] at hlt
    rw [List.getElem?_append_right hlt] at hi
    obtain ⟨a, b, ha, hb, hpair⟩ := ht _ hi
    refine ⟨a, b, ?_, ?_, hpair⟩
    · rw [List.getElem?_append_right (by omega), Nat.sub_add_comm hlt, ha]
    · rw [List.getElem?_append_right (by omega), Nat.sub_add_comm hlt, hb]

theorem decodes_of_not_mem (h : '%' ∉ s) : Decodes s := by
  intro i hi
  exact absurd (List.mem_of_getElem? hi) h

theorem decodes_flatten {parts : List Text} (h : ∀ s ∈ parts, Decodes s) : Decodes parts.flatten := by
  induction parts with
  | nil => exact decodes_of_not_mem (by simp)
  | cons s parts ih =>
    rw [List.forall_mem_cons] at h
    exact h.1.append (ih h.2)

/-! ## Paths -/

theorem flatten_splitOn (rest : Text) (x : Char) : ((rest.splitOn x).intersperse [x]).flatten = rest :=
  List.intercalate_splitOn x

theorem infix_of_mem_splitOn {x : Char} (h : s ∈ rest.splitOn x) : s <:+: rest := by
  obtain ⟨i, hi⟩ := List.getElem?_of_mem h
  have hmem : s ∈ (rest.splitOn x).intersperse [x] :=
    List.mem_of_getElem? ((List.getElem?_intersperse_two_mul ..).trans hi)
  exact flatten_splitOn rest x ▸ List.infix_of_mem_flatten hmem

theorem mem_intersperse {x : Char} {parts : List Text} (h : s ∈ parts.intersperse [x]) : s = [x] ∨ s ∈ parts := by
  induction parts with
  | nil => exact .inr h
  | cons part parts ih =>
    cases parts with
    | nil => exact .inr h
    | cons next parts =>
      rw [List.intersperse_cons_cons] at h
      grind

/-- What a path that is accepted is made of. -/
theorem parseGuestPath_ok {path : Text} {p : GuestPath} (h : parseGuestPath path = some (.ok p)) :
    p.addon ∈ ADDONS ∧ ∃ segment, path = '/' :: (p.addon ++ '/' :: (segment ++ p.rest)) ∧ '/' ∉ segment ∧
      (∀ c ∈ p.rest.head?, c = '/') ∧ percentDecode segment = some (126 :: p.gid) ∧ validGid p.gid = true ∧
      ∀ s ∈ p.rest.splitOn '/', (percentDecode s).any clean = true := by
  have hslash : ∀ {l : Text} {c}, (l.dropWhile notSlash).head? = some c → c = '/' := by
    intro l c hc
    have hnot := List.head?_dropWhile_not notSlash l
    rw [hc] at hnot
    simpa [notSlash] using hnot
  unfold parseGuestPath at h
  split at h
  · rename_i path
    split at h
    · cases h
    rename_i slash tail htail
    obtain ⟨addon, haddon, h⟩ := Option.bind_eq_some_iff.mp h
    have hmem : addon ∈ ADDONS := List.mem_of_find?_eq_some haddon
    have haddon : addon = path.takeWhile notSlash := by simpa using List.find?_some haddon
    have hfirst : slash = '/' := hslash (l := path) (by rw [htail]; rfl)
    dsimp only at h
    split at h
    · cases h
    rename_i decoded hdecoded
    split_ifs at h with hhead hok
    · cases h
      rw [Bool.and_eq_true, List.all_eq_true] at hok
      refine ⟨hmem, tail.takeWhile notSlash, ?_, ?_, fun c hc => hslash hc, ?_, hok⟩
      · rw [List.takeWhile_append_dropWhile, haddon, ← hfirst, ← htail, List.takeWhile_append_dropWhile]
      · intro hmem
        have hall := List.all_eq_true.mp (List.all_takeWhile (p := notSlash) (l := tail)) _ hmem
        cases hall
      · rw [not_not, List.head?_eq_some_iff] at hhead
        obtain ⟨gid, rfl⟩ := hhead
        exact hdecoded
    · cases h
  · cases h

/-- **Guest paths are decoded as the RFC says, but for a sign that stands for a digit.** A text is refused exactly
when some `%` of it is not followed by two hexadecimal digits, and otherwise decoded with every such triple
replaced by its byte, if and only if no `%` of it is followed by a sign and a digit or some `%` reads as nothing
at all. A path that is accepted is made of what the RFC says (`RfcParsed`) if and only if no `%` of it is followed
by a sign and a digit. -/
theorem guest_paths_decode (path : Text) :
    (RfcDecoded path ↔ Unsigned path ∨ ¬ Reads path) ∧
      ∀ p, parseGuestPath path = some (.ok p) → (RfcParsed path p ↔ Unsigned path) := by
  refine ⟨rfcDecoded_iff, fun p hp => ⟨?_, fun hunsigned => ?_⟩⟩
  · rintro ⟨segment, rfl, -, -, ⟨hsegment, -⟩, hrest⟩
    have haddon : ∀ addon ∈ ADDONS, '%' ∉ addon := by decide
    have hparts : Decodes p.rest := by
      rw [← flatten_splitOn p.rest '/']
      refine decodes_flatten fun s hs => ?_
      rcases mem_intersperse hs with rfl | hs
      · exact decodes_of_not_mem (by decide)
      · exact (hrest s hs).1
    have hfront : Decodes ('/' :: (p.addon ++ ['/'])) :=
      decodes_of_not_mem (by simpa using haddon _ (parseGuestPath_ok hp).1)
    have hpath := hfront.append (hsegment.append hparts)
    simpa using (decodes_iff.mp hpath).2
  · obtain ⟨-, segment, rfl, hslash, hhead, hsegment, hgid, hrest⟩ := parseGuestPath_ok hp
    -- what is decoded of a part of the path is what the RFC says
    have hpart : ∀ {s d}, s <:+: '/' :: (p.addon ++ '/' :: (segment ++ p.rest)) → percentDecode s = some d →
        Decodes s ∧ bytes s = d := by
      intro s d hs hd
      obtain ⟨hreads, hbytes⟩ := percentDecode_some hd
      exact ⟨decodes_iff.mpr ⟨hreads, hunsigned.of_infix hs⟩, hbytes⟩
    refine ⟨segment, rfl, hslash, hhead, ?_, fun s hs => ?_⟩
    · obtain ⟨hdecodes, hbytes⟩ := hpart ⟨'/' :: (p.addon ++ ['/']), p.rest, by simp⟩ hsegment
      exact ⟨hdecodes, p.gid, hbytes, by simpa [validGid] using hgid⟩
    · obtain ⟨d, hd, hclean⟩ := (Option.any_eq_true _ _).mp (hrest s hs)
      have hin : s <:+: '/' :: (p.addon ++ '/' :: (segment ++ p.rest)) :=
        (infix_of_mem_splitOn hs).trans ⟨'/' :: (p.addon ++ '/' :: segment), [], by simp⟩
      obtain ⟨hdecodes, rfl⟩ := hpart hin hd
      simp only [clean, Bool.and_eq_true, decide_eq_true_eq, Bool.not_eq_true', List.any_eq_false,
        Bool.or_eq_true, not_or] at hclean
      refine ⟨hdecodes, hclean.1.2, hclean.1.1, fun b hb => ?_⟩
      exact ⟨(hclean.2 b hb).1.1, (hclean.2 b hb).1.2, (hclean.2 b hb).2⟩

/-- **A sign is read as a digit.** `%+5` decodes, and a path with it is accepted. -/
theorem signed_escape_is_decoded :
    percentDecode "%+5".toList = some [5] ∧ ¬ Decodes "%+5".toList ∧
      parseGuestPath "/atlas/~0123abcd/%+5".toList =
        some (.ok ⟨"atlas".toList, "0123abcd".toList.map (UInt8.ofNat ·.toNat), "/%+5".toList⟩) := by
  refine ⟨by decide +kernel, fun h => ?_, by decide +kernel⟩
  refine (decodes_iff.mp h).2 '5' (by unfold HexDigit; decide) (List.infix_refl _)

/-- A path with an escape that is accepted, and made of what the RFC says. -/
theorem guest_paths_decode_sample :
    RfcParsed "/atlas/~0123abcd/%41.json".toList
      ⟨"atlas".toList, "0123abcd".toList.map (UInt8.ofNat ·.toNat), "/%41.json".toList⟩ := by
  refine ((guest_paths_decode _).2 _ (by decide +kernel)).mpr ?_
  intro c _ hin
  exact absurd (hin.subset (show '+' ∈ ['%', '+', c] by simp)) (by decide)

end DenEdge.Grants.Guest
