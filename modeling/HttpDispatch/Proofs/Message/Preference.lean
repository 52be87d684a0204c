import HttpDispatch.Message.Request
import HttpDispatch.Proofs.Binding.Order
import HttpDispatch.Proofs.Text.Elements

/-!
# What a client prefers

The entries of an `Accept` header that are media types of positive quality are put in order: by
falling quality, those of equal quality by falling definiteness, and those that are equal in both as
they stand in the header. Qualities that are left to compare are positive numbers, so that any two
of them can be compared; the patterns of positive numbers have the order of the numbers.

* `Accept.isWanted_iff`: when a quality is positive, also where it is malformed or no number;
* `Accept.wanted`, `Accept.IsPreference`: what the entries leave, and the order of it;
* `Accept.ofEntries_eq_byOrder`, `Accept.ofEntries_eq_iff`: what is made of entries is that, and
  nothing else is;
* `Accept.entries_by_preference`: the same for header fields, however the entries were grouped.
-/

namespace HttpDispatch

/-! ### Positive numbers -/

namespace Binary

variable {f : Format} {a b : Nat}

theorem key_of_pos (h : 0 < key f a) : key f a = a := by
  unfold key split at h ⊢
  by_cases hsign : f.signBit ≤ a
  · simp [hsign] at h
    omega
  · simp [hsign, Nat.mod_eq_of_lt (Nat.lt_of_not_le hsign)]

theorem zero_lt_iff : lt single 0 a = true ↔ isNaN single a = false ∧ 0 < key single a := by
  have hzero : isNaN single 0 = false := by decide
  have hkey : key single 0 = 0 := by decide
  simp [lt, hzero, hkey]

/-- **Positive numbers are compared by their patterns.** -/
theorem lt_of_positive (ha : lt single 0 a = true) (hb : lt single 0 b = true) :
    lt single a b = decide (a < b) := by
  obtain ⟨hna, hka⟩ := zero_lt_iff.mp ha
  obtain ⟨hnb, hkb⟩ := zero_lt_iff.mp hb
  simp [lt, hna, hnb, key_of_pos hka, key_of_pos hkb]

end Binary

theorem MediaType.definiteness_le (m : MediaType) : m.definiteness ≤ 2 := by
  unfold definiteness
  split
  · omega
  · split <;> omega

namespace Accept

open Binary (single lt isNaN key)

variable {entries : List String} {l : List MediaType} {a b m : MediaType}

/-! ### What is wanted -/

theorem lt_clampQuality_iff (q : Nat) :
    lt single 0 (MediaType.clampQuality q) = true ↔ lt single 0 q = true := by
  have hfull : lt single 0 MediaType.fullQuality = true := by decide
  have hzero : lt single 0 0 = false := by decide
  unfold MediaType.clampQuality
  split
  · next hlow =>
    have hkey : key single 0 = 0 := by decide
    simp only [lt, hkey, Bool.and_eq_true, decide_eq_true_eq] at hlow
    rw [hzero, Binary.zero_lt_iff]
    constructor
    · exact nofun
    · rintro ⟨-, hpos⟩
      omega
  · split
    · next hhigh =>
      have hkey : 0 < key single MediaType.fullQuality := by decide
      simp only [lt, Bool.and_eq_true, Bool.not_eq_true', decide_eq_true_eq] at hhigh
      rw [hfull, Binary.zero_lt_iff]
      refine ⟨fun _ => ⟨hhigh.1.2, by omega⟩, fun _ => rfl⟩
    · exact Iff.rfl

/-- **A range is wanted** if nothing is said about its quality, or a positive number. -/
theorem isWanted_iff (m : MediaType) : isWanted m = true ↔
    m.param? "q" = none ∨ ∃ text q, m.param? "q" = some text ∧
      Binary.read single (Text.trim text) = .ok q ∧ isNaN single q = false ∧ 0 < key single q := by
  have hfull : lt single 0 MediaType.fullQuality = true := by decide
  have hzero : lt single 0 0 = false := by decide
  unfold isWanted MediaType.quality
  cases hparam : m.param? "q" with
  | none => simp [hfull]
  | some text =>
    cases hread : Binary.read single (Text.trim text) with
    | error fault => simp [hread, hzero]
    | ok q => simp [hread, lt_clampQuality_iff, ← Binary.zero_lt_iff]

/-- The media types that entries name, in their order, as far as they are wanted. -/
def wanted (entries : List String) : List MediaType :=
  (entries.filterMap MediaType.ofText?).filter isWanted

theorem isWanted_of_mem (h : m ∈ wanted entries) : isWanted m = true := (List.mem_filter.mp h).2

/-- **Two ranges that are wanted can be compared.** -/
theorem comparable (ha : isWanted a = true) (hb : isWanted b = true) :
    isNaN single a.quality = false ∧ isNaN single b.quality = false ∧
      (lt single a.quality b.quality = true ∨ lt single b.quality a.quality = true ∨
        a.quality = b.quality) := by
  refine ⟨(Binary.zero_lt_iff.mp ha).1, (Binary.zero_lt_iff.mp hb).1, ?_⟩
  rw [Binary.lt_of_positive ha hb, Binary.lt_of_positive hb ha, decide_eq_true_eq,
    decide_eq_true_eq]
  omega

/-! ### The order -/

/-- Both have the given quality and definiteness. -/
def hasRank (quality definiteness : Nat) (m : MediaType) : Bool :=
  m.quality == quality && m.definiteness == definiteness

/-- **What is wanted, in the order of preference**: nothing is lost or doubled, nothing is followed
by something of higher quality, nor by something of equal quality that is more definite, and what is
equal in both is in the order in which it was wanted. -/
structure IsPreference (wanted l : List MediaType) : Prop where
  perm : l.Perm wanted
  quality : l.Pairwise fun a b => lt single a.quality b.quality = false
  definiteness : l.Pairwise fun a b => a.quality = b.quality → b.definiteness ≤ a.definiteness
  stable : ∀ q n, l.filter (hasRank q n) = wanted.filter (hasRank q n)

/-- Quality and definiteness in one number, the least for what comes first. -/
def rank (m : MediaType) : Int := -(4 * m.quality + m.definiteness : Nat)

theorem rank_le_iff : rank a ≤ rank b ↔
    b.quality < a.quality ∨ b.quality = a.quality ∧ b.definiteness ≤ a.definiteness := by
  have ha := a.definiteness_le
  have hb := b.definiteness_le
  unfold rank
  omega

theorem rank_eq_iff : rank a = rank b ↔ hasRank b.quality b.definiteness a = true := by
  have ha := a.definiteness_le
  have hb := b.definiteness_le
  simp only [rank, hasRank, Bool.and_eq_true, beq_iff_eq]
  omega

theorem filter_rank (l : List MediaType) (m : MediaType) :
    l.filter (fun x => rank x = rank m) = l.filter (hasRank m.quality m.definiteness) := by
  refine List.filter_congr fun x _ => ?_
  rw [Bool.eq_iff_iff, decide_eq_true_eq, rank_eq_iff]

theorem before_eq (ha : isWanted a = true) (hb : isWanted b = true) :
    before a b = decide (rank a ≤ rank b) := by
  rw [Bool.eq_iff_iff, decide_eq_true_eq, rank_le_iff, before, Binary.lt_of_positive ha hb,
    Binary.lt_of_positive hb ha]
  simp only [Bool.or_eq_true, Bool.and_eq_true, Bool.not_eq_true', decide_eq_true_eq,
    decide_eq_false_iff_not]
  omega

/-- **What is made of entries** is what they leave, by rank. -/
theorem ofEntries_eq_byOrder (entries : List String) :
    ofEntries entries = byOrder rank (wanted entries) := by
  have hsort := List.map_mergeSort (r := before) (s := fun a b => rank a ≤ rank b) (f := id)
    (l := wanted entries) fun a ha b hb => before_eq (isWanted_of_mem ha) (isWanted_of_mem hb)
  rwa [List.map_id, List.map_id] at hsort

theorem isPreference_byOrder (hwanted : ∀ m ∈ l, isWanted m = true) :
    IsPreference l (byOrder rank l) := by
  have hperm : (byOrder rank l).Perm l := List.mergeSort_perm ..
  have hsorted := pairwise_byOrder rank l
  have hboth : ∀ {m}, m ∈ byOrder rank l → isWanted m = true := fun hm =>
    hwanted _ (hperm.mem_iff.mp hm)
  refine ⟨hperm, hsorted.imp_of_mem fun {a b} ha hb hle => ?_,
    hsorted.imp fun {a b} hle heq => ?_, fun q n => ?_⟩
  · rw [rank_le_iff] at hle
    rw [Binary.lt_of_positive (hboth ha) (hboth hb), decide_eq_false_iff_not]
    omega
  · rw [rank_le_iff] at hle
    omega
  · -- those of one rank are in order as they stand
    rw [filter_byOrder]
    refine byOrder_of_pairwise (List.pairwise_map.mpr (List.pairwise_of_forall_mem_list ?_))
    intro a ha b hb
    have hranks := (List.mem_filter.mp ha).2
    have hranks' := (List.mem_filter.mp hb).2
    simp only [hasRank, Bool.and_eq_true, beq_iff_eq] at hranks hranks'
    rw [rank_le_iff]
    omega

theorem IsPreference.pairwise {wanted : List MediaType} (h : IsPreference wanted l)
    (hwanted : ∀ m ∈ wanted, isWanted m = true) : l.Pairwise fun a b => rank a ≤ rank b := by
  refine (h.quality.and h.definiteness).imp_of_mem fun {a b} ha hb hab => ?_
  obtain ⟨hquality, hdefiniteness⟩ := hab
  rw [Binary.lt_of_positive (hwanted _ (h.perm.mem_iff.mp ha)) (hwanted _ (h.perm.mem_iff.mp hb)),
    decide_eq_false_iff_not] at hquality
  rw [rank_le_iff]
  omega

/-- **What is made of entries** is what they leave by preference, and nothing else is. -/
theorem ofEntries_eq_iff : ofEntries entries = l ↔ IsPreference (wanted entries) l := by
  have hwanted : ∀ m ∈ wanted entries, isWanted m = true := fun m => isWanted_of_mem
  rw [ofEntries_eq_byOrder]
  constructor
  · rintro rfl
    exact isPreference_byOrder hwanted
  · intro h
    refine eq_of_filter_eq (pairwise_byOrder rank _) (h.pairwise hwanted) fun m => ?_
    rw [filter_rank, filter_rank, (isPreference_byOrder hwanted).stable, h.stable]

/-! ### Header fields -/

/-- Entries that are distributed over lines, with commas between those of one line, are read as they
were. -/
theorem flatMap_elements_join {values : List String} {groups : List (List String)}
    (h : groups.flatten = values.flatMap Text.elements) :
    (groups.map (",".intercalate ·)).flatMap Text.elements = values.flatMap Text.elements := by
  calc (groups.map (",".intercalate ·)).flatMap Text.elements
      = groups.flatMap fun group => group.flatMap Text.elements := by
        rw [List.flatMap_map]
        exact List.flatMap_congr fun group _ => Text.elements_intercalate group
    _ = groups.flatten.flatMap Text.elements := by rw [List.flatten_eq_flatMap, List.flatMap_assoc]; rfl
    _ = values.flatMap Text.elements := by rw [h, Text.flatMap_elements]

/-- **The entries of `Accept` fields are put in the order of preference.** Whatever the values of the
fields are:

* what is made of their entries is what these leave by preference, and nothing else is;
* they leave the media types of positive quality: where nothing is said about the quality, or a number
  above zero, which is neither malformed nor no number at all;
* qualities that are compared with each other can be compared;
* it makes no difference how the entries are distributed over lines;
* a request with these fields accepts that, or everything if there are no entries. -/
theorem entries_by_preference (values : List String) :
    let entries := values.flatMap Text.elements
    (∀ l, ofEntries entries = l ↔ IsPreference (wanted entries) l) ∧
    (∀ m, m ∈ wanted entries ↔ (∃ e ∈ entries, MediaType.ofText? e = some m) ∧
      (m.param? "q" = none ∨ ∃ text q, m.param? "q" = some text ∧
        Binary.read single (Text.trim text) = .ok q ∧ isNaN single q = false ∧
        0 < key single q)) ∧
    (∀ a ∈ wanted entries, ∀ b ∈ wanted entries,
      isNaN single a.quality = false ∧ isNaN single b.quality = false ∧
        (lt single a.quality b.quality = true ∨ lt single b.quality a.quality = true ∨
          a.quality = b.quality)) ∧
    (∀ groups : List (List String), groups.flatten = entries →
      ofEntries ((groups.map (",".intercalate ·)).flatMap Text.elements) = ofEntries entries) ∧
    ∀ r : Request, r.fields.getAll "accept" = values →
      r.accepted = if entries = [] then [.all] else ofEntries entries := by
  intro entries
  refine ⟨fun l => ofEntries_eq_iff, fun m => ?_, fun a ha b hb =>
    comparable (isWanted_of_mem ha) (isWanted_of_mem hb), fun groups hgroups => ?_, fun r hr => ?_⟩
  · rw [wanted, List.mem_filter, List.mem_filterMap, isWanted_iff]
  · rw [flatMap_elements_join hgroups]
  · have helements : r.fields.elements "accept" = entries := by rw [Fields.elements, hr]
    rw [Request.accepted, ofFields, helements]
    cases entries with
    | nil => rfl
    | cons e rest => rfl

/-- What a reader sends who wants text most: three lines, with a refusal, a media type of a quality
that is no number, and one of a malformed quality. -/
def readerLines : List String :=
  ["*/*;q=0.1, text/*", "text/plain;q=3 , image/png;q=0", "audio/*;q=NaN,video/*;q=much,text/html"]

/-- The media types that are left of them. -/
def readerRanges : List MediaType :=
  [⟨"*", "*", [("q", "0.1")]⟩, .of "text" "*", ⟨"text", "plain", [("q", "3")]⟩, .of "text" "html"]

/-- The same by preference. -/
def readerPreference : List MediaType :=
  [⟨"text", "plain", [("q", "3")]⟩, .of "text" "html", .of "text" "*", ⟨"*", "*", [("q", "0.1")]⟩]

/-- A request with these lines. -/
def reader : Request :=
  ⟨.get, "/", none, 1, ⟨readerLines.map fun line => ("ACCEPT", line)⟩, []⟩

theorem isPreference_readerRanges : IsPreference readerRanges readerPreference where
  perm := by decide
  quality := by decide +kernel
  definiteness := by decide +kernel
  stable q n := by
    -- only the first two are equal in definiteness
    have hfilter : ∀ a b c d : MediaType, a.definiteness = 0 → b.definiteness = 1 →
        c.definiteness = 2 → d.definiteness = 2 →
        [c, d, b, a].filter (hasRank q n) = [a, b, c, d].filter (hasRank q n) := by
      intro a b c d ha hb hc hd
      by_cases hn : n = 2
      · simp [hasRank, ha, hb, hn, List.filter_cons]
      · by_cases hn' : n = 1
        · simp [hasRank, ha, hc, hd, hn', List.filter_cons]
        · simp [hasRank, hb, hc, hd, Ne.symm hn, Ne.symm hn', List.filter_cons]
    exact hfilter _ _ _ _ (by decide) (by decide) (by decide) (by decide)

/-- Text is what the reader gets first, also when the entries stand on other lines. -/
theorem reader_prefers_text : reader.accepted = readerPreference ∧
    ofEntries (["*/*;q=0.1", "text/*,text/plain;q=3,image/png;q=0,audio/*;q=NaN",
      "video/*;q=much,text/html"].flatMap Text.elements) = readerPreference := by
  obtain ⟨horder, -, -, hgroups, haccepted⟩ := entries_by_preference readerLines
  have helements : readerLines.flatMap Text.elements = ["*/*;q=0.1", "text/*", "text/plain;q=3",
      "image/png;q=0", "audio/*;q=NaN", "video/*;q=much", "text/html"] := by
    decide +kernel
  have hwanted : wanted (readerLines.flatMap Text.elements) = readerRanges := by decide +kernel
  have hpreference := (horder readerPreference).mpr (hwanted ▸ isPreference_readerRanges)
  refine ⟨?_, ?_⟩
  · rw [haccepted reader (by decide +kernel), if_neg (by rw [helements]; exact List.cons_ne_nil _ _),
      hpreference]
  · rw [← hpreference]
    exact hgroups [["*/*;q=0.1"], ["text/*", "text/plain;q=3", "image/png;q=0", "audio/*;q=NaN"],
      ["video/*;q=much", "text/html"]] helements.symm

end Accept

end HttpDispatch
