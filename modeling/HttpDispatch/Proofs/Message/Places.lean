import HttpDispatch.Proofs.Message.Delimited

/-!
# Bodies read by places

A reader that keeps a place in the body, looks for marks from there on and takes slices between
places has no answer if it asks for a slice that is not in the body. It always has one: the answer
that the bodies between delimiters define.

* `slice?`, `windows`, `place?`, `lineBreakEnd?`: what the reader asks for;
* `place?_of_isCut`, `place?_of_not_infix`: the place of a mark is where it stands first;
* `readAt`, `addPartsAt`: the reader, and `readAt_eq`: no slice is out of the body;
* `read_decides`: which bodies are read, and what is wrong with the others.
-/

namespace HttpDispatch

namespace Multipart

/-! ### Slices and places -/

/-- The bytes from the place `i` up to the place `j`, if both are in the body in this order. -/
def slice? (body : Bytes) (i j : Nat) : Option Bytes :=
  if i ≤ j ∧ j ≤ body.length then some ((body.take j).drop i) else none

/-- All stretches of `n` bytes, from left to right. -/
def windows (n : Nat) : Bytes → List Bytes
  | [] => []
  | b :: rest =>
    if n ≤ (b :: rest).length then (b :: rest).take n :: windows n rest else []

/-- The first place from `i` on where the mark stands. -/
def place? (mark body : Bytes) (i : Nat) : Option Nat :=
  if body.length < i ∨ mark = [] then none
  else ((windows mark.length (body.drop i)).findIdx? (· == mark)).map (· + i)

/-- The place behind a line break at `i`, or `i` itself if there is none. -/
def lineBreakEnd? (body : Bytes) (i : Nat) : Option Nat :=
  (slice? body i body.length).map fun rest =>
    if [0x0D, 0x0A].isPrefixOf rest then i + 2
    else if [0x0A].isPrefixOf rest then i + 1
    else i

variable {mark body : Bytes} {i j : Nat}

theorem slice?_end (h : i ≤ body.length) : slice? body i body.length = some (body.drop i) := by
  simp [slice?, h]

theorem slice?_of_drop {part rest : Bytes} (h : i ≤ body.length) (hdrop : body.drop i = part ++ rest) :
    slice? body i (i + part.length) = some part := by
  have hlength : body.length = i + part.length + rest.length := by
    have := congrArg List.length hdrop
    simp only [List.length_drop, List.length_append] at this
    omega
  have htake : (body.take (i + part.length)).drop i = part := by
    rw [List.drop_take, hdrop, Nat.add_sub_cancel_left, List.take_left]
  rw [slice?, if_pos ⟨by omega, by omega⟩, htake]

theorem findIdx?_windows (hmark : mark ≠ []) (bytes : Bytes) :
    (windows mark.length bytes).findIdx? (· == mark) = (cutAt mark bytes).map (·.1.length) := by
  induction bytes with
  | nil =>
    have hempty : mark.isEmpty = false := by simpa using hmark
    simp [windows, cutAt, hempty]
  | cons b bytes ih =>
    by_cases hlength : mark.length ≤ (b :: bytes).length
    · have hwindow : ((b :: bytes).take mark.length == mark) = mark.isPrefixOf (b :: bytes) := by
        rw [Bool.eq_iff_iff, beq_iff_eq, List.isPrefixOf_iff_prefix, List.prefix_iff_eq_take,
          eq_comm]
      rw [windows, if_pos hlength, List.findIdx?_cons, hwindow, cutAt, ih]
      split
      · rfl
      · simp [Function.comp_def]
    · -- a mark that is too long for what is left does not stand there
      have hnone : cutAt mark (b :: bytes) = none := by
        rcases cutAt_cases mark (b :: bytes) with ⟨hnone, -⟩ | ⟨before, after, hbytes, -⟩
        · exact hnone
        · rw [hbytes] at hlength
          simp at hlength
          omega
      rw [windows, if_neg hlength, hnone]
      rfl

/-- **The place of a mark** is where it stands first. -/
theorem place?_of_isCut {before after : Bytes} (hmark : mark ≠ []) (h : i ≤ body.length)
    (hdrop : body.drop i = before ++ mark ++ after) (hcut : IsCut mark before after) :
    place? mark body i = some (i + before.length) := by
  have hguard : ¬ (body.length < i ∨ mark = []) := by
    rintro (hlt | hnil)
    · omega
    · exact hmark hnil
  rw [place?, if_neg hguard, findIdx?_windows hmark, hdrop, cutAt_append_of_isCut hcut]
  simp [Nat.add_comm]

theorem place?_of_not_infix (h : ¬ mark <:+: body.drop i) : place? mark body i = none := by
  unfold place?
  split
  · rfl
  · next hguard =>
    rw [findIdx?_windows fun hnil => hguard (.inr hnil)]
    rw [Option.isNone_iff_eq_none.mp (isNone_cutAt.mpr h)]
    rfl

theorem lineBreakEnd?_of_isLead {lead after : Bytes} (h : i ≤ body.length)
    (hdrop : body.drop i = lead ++ after) (hlead : IsLead lead after) :
    lineBreakEnd? body i = some (i + lead.length) := by
  rw [lineBreakEnd?, slice?_end h, hdrop]
  rcases hlead with rfl | rfl | ⟨rfl, hcrlf, hlf⟩
  · rfl
  · rfl
  · rw [Option.map_some, List.nil_append, if_neg (by rwa [List.isPrefixOf_iff_prefix]),
      if_neg (by rwa [List.isPrefixOf_iff_prefix])]
    rfl

@[grind →] theorem le_of_lineBreakEnd? (h : lineBreakEnd? body i = some j) : i ≤ j := by
  obtain ⟨rest, -, rfl⟩ := Option.map_eq_some_iff.mp h
  split
  · omega
  · split <;> omega

@[grind →] theorem le_of_place? (h : place? mark body i = some j) : i ≤ j := by
  unfold place? at h
  split at h
  · cases h
  · obtain ⟨k, -, rfl⟩ := Option.map_eq_some_iff.mp h
    omega

/-! ### The reader -/

/-- Adds the parts behind a delimiter that ends at the place `i`. -/
def addPartsAt (boundary : String) (body : Bytes) (form : Form) (i : Nat) :
    Option (Except FormFault Form) :=
  match slice? body i body.length with
  | none => none
  | some rest =>
    if dashes.isPrefixOf rest then some (.ok form)
    else
      match _ : lineBreakEnd? body i with
      | none => none
      | some start =>
        match _ : place? (closing boundary) body start with
        | none => some (.error .truncated)
        | some stop =>
          match slice? body start stop with
          | none => none
          | some part =>
            match addPart form part with
            | .error fault => some (.error fault)
            | .ok form =>
              if body.length ≤ stop + (closing boundary).length then some (.error .truncated)
              else addPartsAt boundary body form (stop + (closing boundary).length)
  termination_by body.length - i
  decreasing_by
    grind [closing]

/-- Reads the form in a body by places; no answer if a slice is not in the body. -/
def readAt (boundary : String) (body : Bytes) : Option (Except FormFault Form) :=
  match place? (delimiter boundary) body 0 with
  | none => some (.error .missingDelimiter)
  | some i => addPartsAt boundary body .empty (i + (delimiter boundary).length)

variable {boundary : String}

/-- **Reading a stretch by places**: its part is read, and then what stands behind it. -/
theorem addPartsAt_stands {s : Stretch} {rest : Bytes} (h : i ≤ body.length)
    (hdrop : body.drop i = s.bytes boundary ++ rest) (hs : s.Stands boundary rest) (form : Form) :
    addPartsAt boundary body form i =
      match readPart s.part with
      | .error fault => some (.error fault)
      | .ok p =>
        if rest = [] then some (.error .truncated)
        else addPartsAt boundary body (push form p) (i + (s.bytes boundary).length) := by
  have hgoes : ¬ dashes.isPrefixOf (body.drop i) := by
    rw [List.isPrefixOf_iff_prefix, hdrop]
    exact hs.goesOn
  have hlead : body.drop i = s.lead ++ (s.part ++ closing boundary ++ rest) := by
    rw [hdrop]
    simp [Stretch.bytes]
  have hlength : body.length = i + s.lead.length + s.part.length + (closing boundary).length +
      rest.length := by
    have := congrArg List.length hlead
    simp only [List.length_drop, List.length_append] at this
    omega
  have hstart := lineBreakEnd?_of_isLead h hlead hs.lead
  have hpart : body.drop (i + s.lead.length) = s.part ++ closing boundary ++ rest := by
    rw [← List.drop_drop, hlead, List.drop_left]
  have hstop := place?_of_isCut (by simp [closing]) (by omega) hpart hs.part
  have hslice := slice?_of_drop (by omega) (hpart.trans (List.append_assoc ..))
  have hend : i + (s.bytes boundary).length =
      i + s.lead.length + s.part.length + (closing boundary).length := by
    simp only [Stretch.bytes, List.length_append]
    omega
  have hrest : body.length ≤ i + (s.bytes boundary).length ↔ rest = [] := by
    rw [hlength, hend, ← List.length_eq_zero_iff]
    omega
  rw [addPartsAt]
  simp only [slice?_end h, if_neg hgoes]
  split
  · next hnone =>
    rw [hstart] at hnone
    cases hnone
  · next start hsome =>
    rw [hstart] at hsome
    cases hsome
    split
    · next hnone =>
      rw [hstop] at hnone
      cases hnone
    · next stop hsome =>
      rw [hstop] at hsome
      cases hsome
      simp only [hslice, addPart_eq, ← hend, hrest]
      cases readPart s.part <;> rfl

/-- **Reading by places** finds the parts behind a delimiter, and no slice is out of the body. -/
theorem addPartsAt_eq (boundary : String) (form : Form) (h : i ≤ body.length) :
    addPartsAt boundary body form i = some (addParts boundary form (body.drop i)) := by
  induction hn : body.length - i using Nat.strongRecOn generalizing i form with
  | ind n ih =>
    rcases stretch_cases boundary (body.drop i) with hend | hunfinished | ⟨s, rest, hdrop, hs⟩
    · rw [addPartsAt, addParts]
      simp [slice?_end h, hend]
    · obtain ⟨hgoes, lead, after, hdrop, hlead, hnone⟩ := hunfinished
      have hstart := lineBreakEnd?_of_isLead h hdrop hlead
      have hafter : body.drop (i + lead.length) = after := by
        rw [← List.drop_drop, hdrop, List.drop_left]
      have hplace : place? (closing boundary) body (i + lead.length) = none :=
        place?_of_not_infix (hafter ▸ hnone)
      rw [addParts_unfinished ⟨hgoes, lead, after, hdrop, hlead, hnone⟩, addPartsAt]
      simp only [slice?_end h, List.isPrefixOf_iff_prefix, if_neg hgoes]
      split
      · next hnone =>
        rw [hstart] at hnone
        cases hnone
      · next start hsome =>
        rw [hstart] at hsome
        cases hsome
        split
        · rfl
        · next stop hsome =>
          rw [hplace] at hsome
          cases hsome
    · rw [addPartsAt_stands h hdrop hs, hdrop, addParts_stands hs]
      cases readPart s.part with
      | error fault => rfl
      | ok p =>
        simp only
        split
        · next hnil => rw [hnil, addParts_nil]
        · have hbehind : body.drop (i + (s.bytes boundary).length) = rest := by
            rw [← List.drop_drop, hdrop, List.drop_left]
          have hlength := congrArg List.length hdrop
          have hpos : 0 < (s.bytes boundary).length := by
            simp only [Stretch.bytes, closing, List.length_append, List.length_cons]
            omega
          simp only [List.length_drop, List.length_append] at hlength
          rw [ih _ (by omega) _ (by omega) rfl, hbehind]

/-- **No slice is out of the body**: reading by places has an answer, the form or what is wrong. -/
theorem readAt_eq (boundary : String) (body : Bytes) :
    readAt boundary body = some (read boundary body) := by
  have hmark : delimiter boundary ≠ [] := by simp [delimiter, dashes]
  rcases cutAt_cases (delimiter boundary) body with ⟨hcut, hnone⟩ | ⟨preamble, rest, hbody, hcut⟩
  · rw [readAt, place?_of_not_infix hnone, read, hcut]
  · have hplace := place?_of_isCut (i := 0) hmark (Nat.zero_le _) hbody hcut
    have hrest : body.drop (preamble.length + (delimiter boundary).length) = rest := by
      rw [hbody, ← List.length_append, List.drop_left]
    rw [readAt, hplace, Nat.zero_add]
    simp only
    rw [addPartsAt_eq, hrest, read, hbody, cutAt_append_of_isCut hcut]
    rw [hbody]
    simp

/-! ### What is decided -/

/-- **A body is read by its grammar.** Reading never leaves the body. There is a form if and only if
the body is a preamble, the first delimiter, stretches with acceptable parts, and dashes behind the
last delimiter; it has the fields and files of those parts in their order, one for each. There is no
delimiter if and only if that is what is wrong; it is truncated if the body goes on behind
acceptable parts but no further delimiter follows; and otherwise the first part that is not
acceptable is at fault. -/
theorem read_decides (boundary : String) (body : Bytes) :
    readAt boundary body = some (read boundary body) ∧
    (∀ form, read boundary body = .ok form ↔
      ∃ stretches parts epilogue, Opens boundary body stretches (dashes ++ epilogue) ∧
        Accepted stretches parts ∧ form = Form.ofParts parts ∧ form.size = stretches.length) ∧
    (read boundary body = .error .missingDelimiter ↔ ¬ delimiter boundary <:+: body) ∧
    (read boundary body = .error .truncated ↔
      ∃ stretches parts rest, Opens boundary body stretches rest ∧ Accepted stretches parts ∧
        (rest = [] ∨ Unfinished boundary rest)) ∧
    (∀ fault, fault ≠ .missingDelimiter → fault ≠ .truncated →
      (read boundary body = .error fault ↔
        ∃ stretches parts s rest, Opens boundary body (stretches ++ [s]) rest ∧
          Accepted stretches parts ∧ readPart s.part = .error fault)) := by
  have hdecides : ∀ x, read boundary body = x ↔ Decides boundary body x := fun _ => read_eq_iff
  simp only [hdecides]
  refine ⟨readAt_eq boundary body, fun form => ⟨?_, ?_⟩, ⟨?_, .missing⟩, ⟨?_, ?_⟩,
    fun fault hmissing htruncated => ⟨?_, ?_⟩⟩
  · rintro (⟨opens, accepted⟩)
    have hsize := (size_ofParts _).trans accepted.length_eq.symm
    exact ⟨_, _, _, opens, accepted, rfl, hsize⟩
  · rintro ⟨stretches, parts, epilogue, hopens, haccepted, rfl, -⟩
    exact .form hopens haccepted
  · rintro (_ | hnone | _ | ⟨_, _, wrong⟩)
    · exact hnone
    · exact absurd wrong (readPart_ne _).1
  · rintro (_ | _ | ⟨opens, accepted, unfinished⟩ | ⟨_, _, wrong⟩)
    · exact ⟨_, _, _, opens, accepted, .inr unfinished⟩
    · exact absurd wrong (readPart_ne _).2
  · rintro ⟨stretches, parts, rest, hopens, haccepted, rfl | hunfinished⟩
    · exact .truncated hopens haccepted (unfinished_nil boundary)
    · exact .truncated hopens haccepted hunfinished
  · rintro (_ | _ | _ | ⟨opens, accepted, wrong⟩)
    · exact absurd rfl hmissing
    · exact absurd rfl htruncated
    · exact ⟨_, _, _, _, opens, accepted, wrong⟩
  · rintro ⟨stretches, parts, s, rest, hopens, haccepted, hwrong⟩
    exact .part hopens haccepted hwrong

end Multipart

end HttpDispatch
