import Mathlib.Data.Set.Finite.Basic
import HttpDispatch.Proofs.Routing.Instances
import HttpDispatch.Proofs.Routing.Selection

/-!
# Templates within others

A template is narrower than another if that one matches all the paths that it matches, and more.
Among mappings that are alike otherwise, the ranking favours the narrower template, unless both
catch all and have equally many literals: then the narrower one has more captures, and comes last.

* `Template.Fits`: the pieces that a template matches, whatever it captures;
* `Template.IsWithin.refines`: the segments of a template within another refine those of the other;
* `Template.Refines.precedes`, `Template.Refines.precedes_of_areLevel`: which of the two comes
  first;
* `favours_of_precedes`: what that means for the selection;
* `narrower_template_is_favoured`: the two together, and `wider_catch_all_comes_first`: a case in
  which the wider one is favoured.
-/

namespace HttpDispatch

/-! ### Pieces that fit -/

namespace Template

variable {a b : Template} {ps : List String}

/-- The template matches these pieces. -/
def Fits (t : Template) (ps : List String) : Prop :=
  ∃ raw rest : List String, raw.length = holes t.segments ∧ (t.catchAll = false → rest = []) ∧
    ps = filled t.segments raw ++ rest

theorem isSome_capture_iff {t : Template} {path : String} :
    (t.capture path).isSome ↔ t.Fits (pieces path) := by
  rw [capture, pieces_normal, Option.isSome_iff_exists]
  constructor
  · rintro ⟨v, h⟩
    obtain ⟨raw, rest, hlen, hrest, hpieces, -⟩ := capturePieces_eq_some_iff.mp h
    exact ⟨raw, rest, hlen, hrest, hpieces⟩
  · rintro ⟨raw, rest, hlen, hrest, hpieces⟩
    exact ⟨_, capturePieces_eq_some_iff.mpr ⟨raw, rest, hlen, hrest, hpieces, rfl⟩⟩

theorem exists_pieces_eq (h : ∀ s ∈ ps, IsPiece s) : ∃ path, pieces path = ps := by
  have hslashed : ∃ l, Slashed ps l := by
    clear h
    induction ps with
    | nil => exact ⟨_, .nil⟩
    | cons s ps ih =>
      obtain ⟨l, hl⟩ := ih
      exact ⟨_, .cons s hl⟩
  obtain ⟨l, hl⟩ := hslashed
  exact ⟨String.ofList l, pieces_of_slashed hl h⟩

theorem exists_piece_notMem (l : List String) : ∃ s, IsPiece s ∧ s ∉ l := by
  let f : ℕ → String := fun n => String.ofList (List.replicate (n + 1) 'x')
  have hinj : Function.Injective f := by
    intro m n h
    have hlen := congrArg (fun s : String => s.toList.length) h
    simpa [f] using hlen
  obtain ⟨s, ⟨n, rfl⟩, hs⟩ := (Set.infinite_range_of_injective hinj).exists_notMem_finset l.toFinset
  exact ⟨f n, isPiece_ofList (by simp) (by simp), fun hmem => hs (List.mem_toFinset.mpr hmem)⟩

/-- The first template matches no path that the second does not. -/
def IsWithin (a b : Template) : Prop := ∀ path, (a.capture path).isSome → (b.capture path).isSome

theorem IsWithin.fits (h : IsWithin a b) (hps : ∀ s ∈ ps, IsPiece s) (ha : a.Fits ps) :
    b.Fits ps := by
  obtain ⟨path, rfl⟩ := exists_pieces_eq hps
  exact isSome_capture_iff.mp (h path (isSome_capture_iff.mpr ha))

end Template

/-! ### Segments that refine others -/

/-- A segment is the other one if that is a literal. -/
def Segment.Refines (s t : Segment) : Prop := t.isLiteral = true → s = t

namespace Template

variable {front segments : List Segment}

theorem length_filled {raw : List String} (h : raw.length = holes segments) :
    (filled segments raw).length = segments.length := by
  induction segments generalizing raw with
  | nil => rfl
  | cons s segments ih =>
    obtain ⟨piece, rest, hfilled, hlen, -⟩ := exists_filled_cons h
    rw [hfilled, List.length_cons, ih hlen, List.length_cons]

theorem Fits.length_eq {t : Template} {ps : List String} (h : t.Fits ps)
    (hcatch : t.catchAll = false) : ps.length = t.segments.length := by
  obtain ⟨raw, rest, hlen, hrest, rfl⟩ := h
  rw [hrest hcatch, List.append_nil, length_filled hlen]

theorem literals_add_holes (segments : List Segment) :
    segments.countP Segment.isLiteral + holes segments = segments.length := by
  rw [holes, List.length_eq_countP_add_countP Segment.isLiteral (l := segments)]
  congr 2
  funext s
  cases s.isLiteral <;> rfl

/-- If the pieces of segments, with a piece for the open ones that is no literal of the others,
begin with pieces of those others, then segments at the front refine the others. -/
theorem exists_refines_of_filled_eq {raw rest : List String} {piece : String}
    (hpiece : ∀ text, .literal text ∈ segments → text ≠ piece)
    (hraw : raw.length = holes segments) {narrow : List Segment}
    (h : filled narrow (List.replicate (holes narrow) piece) = filled segments raw ++ rest) :
    ∃ front back, narrow = front ++ back ∧ List.Forall₂ Segment.Refines front segments := by
  induction segments generalizing raw narrow with
  | nil => exact ⟨[], narrow, rfl, .nil⟩
  | cons t segments ih =>
    obtain ⟨p, raw', hfirst, hlen, ht⟩ := exists_filled_cons hraw
    cases narrow with
    | nil =>
      rw [hfirst] at h
      cases h
    | cons s narrow =>
      have hfull : (List.replicate (holes (s :: narrow)) piece).length = holes (s :: narrow) :=
        List.length_replicate
      obtain ⟨q, own, hown, hownlen, hs⟩ := exists_filled_cons hfull
      rw [hown, hfirst] at h
      obtain ⟨rfl, hrest⟩ := List.cons.inj h
      have hmem : ∀ x ∈ own, x = piece := by
        intro x hx
        refine List.eq_of_mem_replicate (n := holes (s :: narrow)) ?_
        rcases hs with ⟨-, heq⟩ | ⟨-, heq⟩
        · rwa [heq]
        · rw [heq]
          exact List.mem_cons_of_mem _ hx
      rw [List.eq_replicate_iff.mpr ⟨hownlen, hmem⟩] at hrest
      obtain ⟨front, back, rfl, hfront⟩ :=
        ih (fun text htext => hpiece text (List.mem_cons_of_mem _ htext)) hlen hrest
      refine ⟨s :: front, back, rfl, .cons (fun hliteral => ?_) hfront⟩
      rcases ht with ⟨rfl, -⟩ | ⟨hopen, -⟩
      · rcases hs with ⟨rfl, -⟩ | ⟨-, heq⟩
        · rfl
        · have hq : q ∈ List.replicate (holes (s :: front ++ back)) piece := by
            rw [List.cons_append, heq]
            exact List.mem_cons_self
          exact absurd (List.eq_of_mem_replicate hq) (hpiece q List.mem_cons_self)
      · rw [hopen] at hliteral
        cases hliteral

theorem literals_le_of_refines (h : List.Forall₂ Segment.Refines front segments) :
    segments.countP Segment.isLiteral ≤ front.countP Segment.isLiteral := by
  induction h with
  | nil => exact Nat.le_refl _
  | @cons s t front segments hs _ ih =>
    rw [List.countP_cons, List.countP_cons]
    by_cases ht : t.isLiteral = true
    · rw [hs ht]
      omega
    · rw [if_neg ht]
      omega

/-- Segments that refine others without more literals have the same literals. -/
theorem filled_eq_of_refines (h : List.Forall₂ Segment.Refines front segments)
    (hcount : front.countP Segment.isLiteral = segments.countP Segment.isLiteral)
    (raw : List String) : filled front raw = filled segments raw := by
  induction h generalizing raw with
  | nil => rfl
  | @cons s t front segments hs hrest ih =>
    have hle := literals_le_of_refines hrest
    rw [List.countP_cons, List.countP_cons] at hcount
    by_cases ht : t.isLiteral = true
    · obtain rfl := hs ht
      cases s with
      | literal text => exact congrArg (text :: ·) (ih (by omega) raw)
      | capture => cases ht
      | any => cases ht
    · have hopen : ¬ s.isLiteral = true := by
        intro hs
        rw [if_pos hs, if_neg ht] at hcount
        omega
      have hsame := ih (by rw [if_neg hopen, if_neg ht] at hcount; exact hcount)
      cases s <;> cases t <;> simp only [Segment.isLiteral, not_true_eq_false] at ht hopen <;>
        cases raw <;> simp only [filled, hsame]

/-! ### Templates that refine others -/

variable {a b : Template}

/-- **Some first segments of a template refine those of another**, all of them unless that one
catches all. -/
structure Refines (a b : Template) (front back : List Segment) : Prop where
  segments_eq : a.segments = front ++ back
  refines : List.Forall₂ Segment.Refines front b.segments
  catchAll : b.catchAll = false → a.catchAll = false ∧ back = []

/-- The literals of a template are pieces. -/
def HasPieces (t : Template) : Prop := ∀ text, .literal text ∈ t.segments → IsPiece text

theorem hasPieces_ofText (text : String) : (ofText text).HasPieces :=
  fun _ => isPiece_of_literal_mem (isWritten_ofText text)

/-- **A template within another refines it.** -/
theorem IsWithin.refines (h : IsWithin a b) (ha : a.HasPieces) :
    ∃ front back, Refines a b front back := by
  obtain ⟨piece, hpiece, hfresh⟩ := exists_piece_notMem
    (filled b.segments (List.replicate (holes b.segments) ""))
  have hnone : ∀ text, .literal text ∈ b.segments → text ≠ piece := by
    rintro text htext rfl
    exact hfresh ((mem_filled_iff List.length_replicate).mpr (.inr htext))
  -- the pieces of a path that only the literals of the first template are special about
  let own := filled a.segments (List.replicate (holes a.segments) piece)
  have hlen : (List.replicate (holes a.segments) piece).length = holes a.segments :=
    List.length_replicate
  have hown : ∀ s ∈ own, IsPiece s := by
    intro s hs
    rcases (mem_filled_iff hlen).mp hs with hs | hs
    · rwa [List.eq_of_mem_replicate hs]
    · exact ha s hs
  have hfits := h.fits hown ⟨_, [], hlen, fun _ => rfl, (List.append_nil own).symm⟩
  have hlength : b.catchAll = false → own.length = b.segments.length := hfits.length_eq
  obtain ⟨raw, rest, hraw, -, hfilled⟩ := hfits
  obtain ⟨front, back, hsegments, hfront⟩ := exists_refines_of_filled_eq hnone hraw hfilled
  refine ⟨front, back, hsegments, hfront, fun hcatch => ?_⟩
  have hlength := hlength hcatch
  constructor
  · -- if it caught all, it would match a longer path
    by_contra hall
    have hlonger : ∀ s ∈ own ++ [piece], IsPiece s := by
      intro s hs
      rcases List.mem_append.mp hs with hs | hs
      · exact hown s hs
      · rwa [List.mem_singleton.mp hs]
    have hlength' :=
      (h.fits hlonger ⟨_, [piece], hlen, fun hno => absurd hno hall, rfl⟩).length_eq hcatch
    rw [List.length_append, List.length_singleton] at hlength'
    omega
  · rw [length_filled hlen, hsegments, List.length_append, hfront.length_eq] at hlength
    exact List.eq_nil_of_length_eq_zero (by omega)

theorem openness_of_catchAll {t : Template} (h : t.catchAll = true) : t.openness = 2 := by
  rw [openness, if_pos h]

theorem openness_of_not_catchAll {t : Template} (h : t.catchAll = false) :
    t.openness = if 0 < t.captures then 1 else 0 := by
  rw [openness, h, if_neg nofun]

theorem captures_eq_holes (t : Template) : t.captures = holes t.segments := by
  have h := literals_add_holes t.segments
  rw [captures, literals]
  omega

/-- Both catch all, and have equally many literals. -/
def AreLevel (a b : Template) : Prop :=
  a.catchAll = true ∧ b.catchAll = true ∧ a.literals = b.literals

instance (a b : Template) : Decidable (AreLevel a b) :=
  inferInstanceAs (Decidable (_ ∧ _))

variable {back : List Segment}

namespace Refines

theorem literals_eq (h : Refines a b front back) : a.literals =
    front.countP Segment.isLiteral + back.countP Segment.isLiteral := by
  rw [literals, h.segments_eq, List.countP_append]

theorem captures_eq (h : Refines a b front back) : a.captures = holes front + holes back := by
  rw [captures_eq_holes, h.segments_eq, holes, List.countP_append]
  rfl

/-- The other template is within it, too, if it has as many segments and literals and catches all
as well. -/
theorem isWithin (h : Refines a b front []) (hcatch : a.catchAll = b.catchAll)
    (hcount : a.literals = b.literals) : IsWithin b a := by
  have hliterals : front.countP Segment.isLiteral = b.segments.countP Segment.isLiteral := by
    rwa [h.literals_eq, List.countP_nil, Nat.add_zero] at hcount
  have hholes : holes front = holes b.segments := by
    have hfront := literals_add_holes front
    have hb := literals_add_holes b.segments
    have hlength := h.refines.length_eq
    omega
  have hsegments : a.segments = front := by rw [h.segments_eq, List.append_nil]
  intro path hb
  obtain ⟨raw, rest, hlen, hrest, hpieces⟩ := isSome_capture_iff.mp hb
  refine isSome_capture_iff.mpr ⟨raw, rest, ?_, ?_, ?_⟩
  · rw [hlen, hsegments, hholes]
  · rwa [hcatch]
  · rw [hpieces, hsegments, filled_eq_of_refines h.refines hliterals]

theorem counts (h : Refines a b front back) : b.literals + back.length ≤
    a.literals + holes back ∧ a.literals + a.captures = b.literals + b.captures + back.length := by
  have hle := literals_le_of_refines h.refines
  have hfront := literals_add_holes front
  have hback := literals_add_holes back
  have hb := literals_add_holes b.segments
  have hlength := h.refines.length_eq
  rw [h.literals_eq, h.captures_eq, captures_eq_holes b, literals]
  omega

/-- **The narrower template comes first.** -/
theorem precedes (h : Refines a b front back) (hnot : ¬ IsWithin b a) (hno : ¬ AreLevel a b) :
    a.Precedes b := by
  obtain ⟨hliterals, hsum⟩ := h.counts
  have hback := literals_add_holes back
  cases hcatch : b.catchAll with
  | false =>
    obtain ⟨hown, rfl⟩ := h.catchAll hcatch
    have hmore : a.literals ≠ b.literals :=
      fun heq => hnot (h.isWithin (by rw [hown, hcatch]) heq)
    have hcaptures : 0 < b.captures := by
      rw [List.length_nil] at hback hliterals hsum
      omega
    rw [Precedes, openness_of_not_catchAll hown, openness_of_not_catchAll hcatch, if_pos hcaptures]
    rw [List.length_nil] at hback hliterals hsum
    split <;> omega
  | true =>
    cases hown : a.catchAll with
    | false =>
      left
      rw [openness_of_not_catchAll hown, openness_of_catchAll hcatch]
      split <;> omega
    | true =>
      have hmore : a.literals ≠ b.literals := fun heq => hno ⟨hown, hcatch, heq⟩
      rw [Precedes, openness_of_catchAll hown, openness_of_catchAll hcatch]
      omega

/-- **The wider template comes first** if both catch all and have equally many literals. -/
theorem precedes_of_areLevel (h : Refines a b front back) (hnot : ¬ IsWithin b a)
    (hlevel : AreLevel a b) : b.Precedes a := by
  obtain ⟨ha, hb, hcount⟩ := hlevel
  have hback : back ≠ [] := by
    rintro rfl
    exact hnot (h.isWithin (by rw [ha, hb]) hcount)
  have hpos := List.length_pos_iff.mpr hback
  have hsum := h.counts.2
  rw [Precedes, openness_of_catchAll ha, openness_of_catchAll hb]
  omega

end Refines

end Template

/-! ### The favoured template -/

section Selection

variable {ρ : Type} {mapping : ρ → Mapping} {r : Request} {table : List ρ} {x y : ρ}

theorem entry_ne_of_precedes {s : Selection ρ} (hx : x ∈ table)
    (h : (mapping x).Precedes (mapping y))
    (hfor : ((mapping y).capture r).isSome → ((mapping x).capture r).isSome)
    (hs : select mapping r table = some s) : s.entry ≠ y := by
  rintro rfl
  have hbest := select_eq_some_iff.mp hs
  obtain ⟨i, hi⟩ := List.getElem?_of_mem hx
  rcases hbest.best i x hi (hfor (by rw [hbest.pathVars]; rfl)) with hbefore | ⟨heq, -⟩
  · exact hbefore.asymm h
  · exact h.key_ne heq.symm

theorem winner_of_precedes (hx : x ∈ table) (h : (mapping x).Precedes (mapping y))
    (hfor : ((mapping y).capture r).isSome → ((mapping x).capture r).isSome)
    (honly : ∀ z ∈ table, z = x ∨ z = y) :
    winner mapping r table = ((mapping x).capture r).map fun v => (x, v) := by
  unfold winner
  cases hs : select mapping r table with
  | none => rw [select_eq_none_iff.mp hs x hx]; rfl
  | some s =>
    have hbest := select_eq_some_iff.mp hs
    obtain rfl : s.entry = x :=
      (honly _ hbest.mem).resolve_right (entry_ne_of_precedes hx h hfor hs)
    rw [hbest.pathVars]
    rfl

theorem isSome_capture_of_template {m n : Mapping} {t : Template}
    (hn : n = { m with template := t }) (hm : (m.template.capture r.path).isSome)
    (h : (n.capture r).isSome) : (m.capture r).isSome := by
  subst hn
  unfold Mapping.capture at h ⊢
  split at h
  · next hallows =>
    obtain ⟨v, hv⟩ := Option.isSome_iff_exists.mp hm
    obtain ⟨w, hw⟩ := Option.isSome_iff_exists.mp h
    have hmedia : (m.readsBody r && m.isAcceptable r) = true := (Option.filter_eq_some_iff.mp hw).2
    rw [if_pos (show m.allowsMethod r = true from hallows), hv, Option.filter_some, if_pos hmedia]
    rfl
  · cases h

end Selection

namespace Template

/-- **A template is narrower** than another: that one matches all its paths, and some other one. -/
structure Narrower (a b : Template) : Prop where
  within : IsWithin a b
  exceeds : ∃ path, (b.capture path).isSome ∧ a.capture path = none

theorem Narrower.not_isWithin {a b : Template} (h : Narrower a b) : ¬ IsWithin b a := by
  intro hba
  obtain ⟨path, hb, ha⟩ := h.exceeds
  have hsome := hba path hb
  rw [ha] at hsome
  cases hsome

/-- **A template is favoured over another**: it comes first by rank, and of two entries that are
alike but for these templates, the one with the other template is not selected for a path that the
first template matches, and its own entry is if there are no entries but these. -/
structure Favours (a b : Template) : Prop where
  before : rankBefore a.rank b.rank
  entry_ne : ∀ {ρ : Type} (mapping : ρ → Mapping) (r : Request) (table : List ρ) (x y : ρ),
    (mapping x).template = a → mapping y = { mapping x with template := b } →
    (a.capture r.path).isSome → x ∈ table →
    ∀ s, select mapping r table = some s → s.entry ≠ y
  winner_eq : ∀ {ρ : Type} (mapping : ρ → Mapping) (r : Request) (table : List ρ) (x y : ρ),
    (mapping x).template = a → mapping y = { mapping x with template := b } →
    (a.capture r.path).isSome → x ∈ table → (∀ z ∈ table, z = x ∨ z = y) →
    winner mapping r table = ((mapping x).capture r).map fun v => (x, v)

theorem favours_of_precedes {a b : Template} (h : a.Precedes b) : Favours a b := by
  have hmapping : ∀ {m n : Mapping}, m.template = a → n = { m with template := b } →
      m.Precedes n := by
    rintro m n rfl rfl
    exact .inl h
  refine ⟨rankBefore_iff.mpr h, fun mapping r table x y hx hy hpath hmem s hs => ?_,
    fun mapping r table x y hx hy hpath hmem honly => ?_⟩
  · exact entry_ne_of_precedes hmem (hmapping hx hy)
      (isSome_capture_of_template hy (by rwa [hx])) hs
  · exact winner_of_precedes hmem (hmapping hx hy)
      (isSome_capture_of_template hy (by rwa [hx])) honly

/-- **The narrower template is favoured**, unless both catch all and have equally many literals. In
that case the wider one is. -/
theorem narrower_template_is_favoured (a b : String) (h : Narrower (ofText a) (ofText b)) :
    (¬ AreLevel (ofText a) (ofText b) → Favours (ofText a) (ofText b)) ∧
      (AreLevel (ofText a) (ofText b) → Favours (ofText b) (ofText a)) := by
  obtain ⟨front, back, hrefines⟩ := h.within.refines (hasPieces_ofText a)
  exact ⟨fun hno => favours_of_precedes (hrefines.precedes h.not_isWithin hno),
    fun hlevel => favours_of_precedes (hrefines.precedes_of_areLevel h.not_isWithin hlevel)⟩

theorem own_user_is_favoured : Narrower (ofText "/users/me") (ofText "/users/:id") ∧
    Favours (ofText "/users/me") (ofText "/users/:id") := by
  have hwithin : IsWithin (ofText "/users/me") (ofText "/users/:id") := by
    intro path h
    obtain ⟨raw, rest, -, hrest, hpieces⟩ := isSome_capture_iff.mp h
    rw [hrest (by decide +kernel), show (ofText "/users/me").segments =
      [.literal "users", .literal "me"] by decide +kernel] at hpieces
    refine isSome_capture_iff.mpr ⟨["me"], [], by decide +kernel, fun _ => rfl, ?_⟩
    rw [hpieces, show (ofText "/users/:id").segments =
      [.literal "users", .capture "id"] by decide +kernel]
    rfl
  have h : Narrower (ofText "/users/me") (ofText "/users/:id") :=
    ⟨hwithin, "/users/7", by decide +kernel, by decide +kernel⟩
  exact ⟨h, (narrower_template_is_favoured _ _ h).1 (by decide +kernel)⟩

/-- A request for a path of two pieces. -/
def twoPieces : Request := ⟨.get, "/a/b", none, 1, .empty, []⟩

/-- Everything below some piece is less than everything, but everything comes first. -/
theorem wider_catch_all_comes_first : Narrower (ofText "/:x/*") (ofText "/*") ∧
    rankBefore (ofText "/:x/*").rank (ofText "/*").rank = false ∧
    winner id twoPieces [.of "/:x/*", .of "/*"] = some (.of "/*", ⟨[("wildcard", "a/b")]⟩) := by
  refine ⟨⟨fun path _ => isSome_capture_iff.mpr ?_, "/", by decide +kernel, by decide +kernel⟩,
    by decide +kernel, by decide +kernel⟩
  exact ⟨[], pieces path, by decide +kernel, fun hno => absurd hno (by decide +kernel), by
    rw [show (ofText "/*").segments = [] by decide +kernel]; rfl⟩

end Template

end HttpDispatch
