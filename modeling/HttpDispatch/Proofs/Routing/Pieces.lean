import Mathlib.Data.List.Forall2
import HttpDispatch.Proofs.Text.Split
import HttpDispatch.Routing.Template

/-!
# Paths and templates as they are written

A path consists of pieces with slashes between them; slashes at its ends and repeated slashes count
for nothing. A template is written in the same way, its pieces being the written forms of segments.

* `Slashed`: pieces with slashes, and `pieces_of_slashed`, `slashed_pieces`: they are what is read;
* `Segment.IsWritten`: how a segment is written, and `Segment.ofText_eq_iff`: it is what is read;
* `Template.IsWritten`: how a template is written, and `Template.isWritten_ofText`,
  `Template.ofText_of_isWritten`: it is what is read.
-/

namespace HttpDispatch

/-! ### Pieces and slashes -/

/-- **Pieces with slashes**: some between them, and any number at either end. -/
inductive Slashed : List String → List Char → Prop
  | nil : Slashed [] []
  | slash {pieces : List String} {l : List Char} (h : Slashed pieces l) : Slashed pieces ('/' :: l)
  | last (piece : String) : Slashed [piece] piece.toList
  | cons (piece : String) {pieces : List String} {l : List Char} (h : Slashed pieces l) :
    Slashed (piece :: pieces) (piece.toList ++ '/' :: l)

/-- What may stand between slashes. -/
def IsPiece (s : String) : Prop := s ≠ "" ∧ '/' ∉ s.toList

theorem isPiece_ofList {l : List Char} (hne : l ≠ []) (h : '/' ∉ l) :
    IsPiece (String.ofList l) := by
  refine ⟨fun hempty => hne ?_, by rwa [String.toList_ofList]⟩
  rw [← String.toList_ofList (l := l), hempty]
  rfl

namespace Template

theorem pieces_append (l r : List Char) : pieces (String.ofList (l ++ '/' :: r)) =
    pieces (String.ofList l) ++ pieces (String.ofList r) := by
  simp [pieces, Text.split, Text.pieces_append_pieces]

theorem pieces_of_isPiece {s : String} (h : IsPiece s) : pieces s = [s] := by
  simp [pieces, Text.split, Text.pieces_of_not_mem h.2, h.1]

theorem pieces_slash_cons (l : List Char) :
    pieces (String.ofList ('/' :: l)) = pieces (String.ofList l) := by
  have h := pieces_append [] l
  rwa [show pieces (String.ofList []) = [] from rfl, List.nil_append, List.nil_append] at h

/-- **The pieces are read as they were written.** -/
theorem pieces_of_slashed {ps : List String} {l : List Char} (h : Slashed ps l)
    (hps : ∀ s ∈ ps, IsPiece s) : pieces (String.ofList l) = ps := by
  induction h with
  | nil => rfl
  | slash _ ih => rw [pieces_slash_cons, ih hps]
  | last piece => rw [String.ofList_toList, pieces_of_isPiece (hps piece List.mem_cons_self)]
  | cons piece _ ih =>
    rw [pieces_append, String.ofList_toList, pieces_of_isPiece (hps piece List.mem_cons_self),
      ih fun s hs => hps s (List.mem_cons_of_mem _ hs), List.singleton_append]

/-- **Every text is written with its pieces.** -/
theorem slashed_pieces (l : List Char) : Slashed (pieces (String.ofList l)) l ∧
    ∀ s ∈ pieces (String.ofList l), IsPiece s := by
  by_cases hmem : '/' ∈ l
  · obtain ⟨a, b, rfl, ha⟩ := List.eq_append_cons_of_mem hmem
    obtain ⟨hslashed, hpiece⟩ := slashed_pieces b
    rw [pieces_append]
    by_cases hempty : a = []
    · subst hempty
      exact ⟨.slash hslashed, hpiece⟩
    · have hone := isPiece_ofList hempty ha
      have hcons := Slashed.cons (String.ofList a) hslashed
      rw [String.toList_ofList] at hcons
      rw [pieces_of_isPiece hone, List.singleton_append]
      refine ⟨hcons, fun s hs => ?_⟩
      rcases List.mem_cons.mp hs with rfl | hs
      · exact hone
      · exact hpiece s hs
  · by_cases hempty : l = []
    · subst hempty
      exact ⟨.nil, fun s hs => by cases hs⟩
    · have hone := isPiece_ofList hempty hmem
      have hlast := Slashed.last (String.ofList l)
      rw [String.toList_ofList] at hlast
      rw [pieces_of_isPiece hone]
      exact ⟨hlast, fun s hs => by rw [List.mem_singleton.mp hs]; exact hone⟩
termination_by l.length
decreasing_by
  subst_vars
  simp only [List.length_append, List.length_cons]
  omega

/-! ### Ends of a text -/

theorem pieces_append_slashes (l : List Char) {b : List Char} (hb : ∀ c ∈ b, c = '/') :
    pieces (String.ofList (l ++ b)) = pieces (String.ofList l) := by
  induction b generalizing l with
  | nil => rw [List.append_nil]
  | cons c b ih =>
    obtain rfl := hb c List.mem_cons_self
    have hrest := ih [] fun x hx => hb x (List.mem_cons_of_mem _ hx)
    rw [List.nil_append] at hrest
    rw [pieces_append, hrest]
    exact List.append_nil _

/-- Slashes at the end of a text do not change its pieces. -/
@[simp] theorem pieces_normal (path : String) : pieces (normal path) = pieces path := by
  unfold normal
  split
  · rfl
  · obtain ⟨b, hb, hslash⟩ := Text.exists_stripEnd (· == '/') path.toList
    have h := pieces_append_slashes (Text.stripEnd (· == '/') path.toList)
      fun c hc => eq_of_beq (hslash c hc)
    rw [← hb, String.ofList_toList] at h
    exact h.symm

theorem getLast?_normal (path : String) :
    normal path = "/" ∨ (normal path).toList.getLast? ≠ some '/' := by
  unfold normal
  split
  · left; assumption
  · right
    rw [String.toList_ofList]
    intro h
    exact Text.getLast?_stripEnd (· == '/') path.toList '/' h rfl

/-- **The last star is cut off**, and is the last piece of the text. -/
theorem pieces_cutStar {s : String} (h : s = "/" ∨ s.toList.getLast? ≠ some '/') :
    pieces s = pieces (cutStar s).1 ++ (if (cutStar s).2 then ["*"] else []) ∧
      ((cutStar s).2 = false → (pieces (cutStar s).1).getLast? ≠ some "*") := by
  unfold cutStar
  split
  · next hrev =>
    have hs : s = "*" := String.toList_inj.mp (List.reverse_eq_cons_iff.mp hrev)
    subst hs
    exact ⟨rfl, nofun⟩
  · next r hrev =>
    have hs : s = String.ofList (r.reverse ++ '/' :: ['*']) := by
      rw [← String.toList_inj, String.toList_ofList, ← List.reverse_reverse s.toList, hrev]
      simp
    refine ⟨?_, nofun⟩
    rw [hs, pieces_append]
    rfl
  · next hone htwo =>
    refine ⟨(List.append_nil _).symm, fun _ hlast => ?_⟩
    by_cases hmem : '/' ∈ s.toList.reverse
    · -- what stands behind the last slash is the last piece, if it is one
      obtain ⟨b, a, hrev, hb⟩ := List.eq_append_cons_of_mem hmem
      have hs : s = String.ofList (a.reverse ++ '/' :: b.reverse) := by
        rw [← String.toList_inj, String.toList_ofList, ← List.reverse_reverse s.toList, hrev]
        simp
      by_cases hempty : b = []
      · subst hempty
        rcases h with rfl | h
        · cases hlast
        · rw [hs, String.toList_ofList] at h
          simp at h
      · have hpiece : IsPiece (String.ofList b.reverse) :=
          isPiece_ofList (by simpa using hempty) (by simpa using hb)
        rw [hs, pieces_append, pieces_of_isPiece hpiece, List.getLast?_concat] at hlast
        have hstar : b.reverse = ['*'] := by
          have := congrArg String.toList (Option.some.inj hlast)
          rwa [String.toList_ofList] at this
        rw [List.reverse_eq_cons_iff.mp hstar] at hrev
        exact htwo a hrev
    · by_cases hempty : s = ""
      · subst hempty
        cases hlast
      · have hpiece : IsPiece s := ⟨hempty, by simpa using hmem⟩
        rw [pieces_of_isPiece hpiece] at hlast
        rw [show s = "*" from Option.some.inj hlast] at hone
        exact hone rfl

end Template

/-! ### Written segments -/

/-- **How a segment is written**: a capture in either way, and a literal as itself if that is not
how one of the others is written. -/
inductive Segment.IsWritten : Segment → String → Prop
  | literal {text : String} (any : text ≠ "*") (colon : ∀ name, text ≠ ":" ++ name)
    (braces : ∀ name, text ≠ "\x7b" ++ name ++ "\x7d") : IsWritten (.literal text) text
  | colon (name : String) : IsWritten (.capture name) (":" ++ name)
  | braces (name : String) : IsWritten (.capture name) ("\x7b" ++ name ++ "\x7d")
  | any : IsWritten .any "*"

namespace Segment

theorem braced?_eq_some_iff {l : List Char} {name : String} :
    braced? l = some name ↔ l = '\x7b' :: name.toList ++ ['\x7d'] := by
  constructor
  · intro h
    unfold braced? at h
    split at h
    · next r =>
      split at h
      · next hlast =>
        obtain ⟨front, rfl⟩ := List.getLast?_eq_some_iff.mp hlast
        rw [List.dropLast_concat] at h
        rw [← Option.some.inj h, String.toList_ofList, List.cons_append]
      · cases h
    · cases h
  · rintro rfl
    simp [braced?]

theorem ofText_of_isWritten {segment : Segment} {text : String} (h : segment.IsWritten text) :
    ofText text = segment := by
  cases h with
  | literal hany hcolon hbraces =>
    unfold ofText
    split
    · next hl => exact absurd (String.toList_inj.mp hl) hany
    · next name hl =>
      refine absurd ?_ (hcolon (String.ofList name))
      rw [← String.toList_inj, hl, String.toList_append, String.toList_ofList,
        String.toList_ofList]
      rfl
    · split
      · next name hl =>
        refine absurd ?_ (hbraces name)
        rw [← String.toList_inj, braced?_eq_some_iff.mp hl, String.toList_append,
          String.toList_append]
        rfl
      · rfl
  | colon name =>
    have hl : (":" ++ name).toList = ':' :: name.toList := by rw [String.toList_append]; rfl
    unfold ofText
    rw [hl]
    exact congrArg capture String.ofList_toList
  | braces name =>
    have hl : ("\x7b" ++ name ++ "\x7d").toList = '\x7b' :: name.toList ++ ['\x7d'] := by
      rw [String.toList_append, String.toList_append]
      rfl
    have hbraced : braced? ("\x7b" ++ name ++ "\x7d").toList = some name :=
      braced?_eq_some_iff.mpr hl
    unfold ofText
    split
    · next h =>
      rw [hl] at h
      simp at h
    · next h =>
      rw [hl] at h
      simp at h
    · rw [hbraced]
  | any => rfl

/-- **A segment is read from a text** exactly if the text is how it is written. -/
theorem ofText_eq_iff {segment : Segment} {text : String} :
    ofText text = segment ↔ segment.IsWritten text := by
  refine ⟨fun h => ?_, ofText_of_isWritten⟩
  subst h
  by_cases hany : text = "*"
  · subst hany
    exact .any
  · by_cases hcolon : ∃ name, text = ":" ++ name
    · obtain ⟨name, rfl⟩ := hcolon
      rw [ofText_of_isWritten (.colon name)]
      exact .colon name
    · by_cases hbraces : ∃ name, text = "\x7b" ++ name ++ "\x7d"
      · obtain ⟨name, rfl⟩ := hbraces
        rw [ofText_of_isWritten (.braces name)]
        exact .braces name
      · have hliteral : IsWritten (.literal text) text :=
          .literal hany (fun name h => hcolon ⟨name, h⟩) fun name h => hbraces ⟨name, h⟩
        rw [ofText_of_isWritten hliteral]
        exact hliteral

end Segment

/-! ### Written templates -/

namespace Template

/-- **How a template is written**: the written forms of its segments as pieces with slashes, and a
star as the last piece if it catches all. A star is no other last piece. -/
def IsWritten (segments : List Segment) (catchAll : Bool) (text : String) : Prop :=
  ∃ ps : List String, List.Forall₂ Segment.IsWritten segments ps ∧ (∀ s ∈ ps, IsPiece s) ∧
    Slashed (ps ++ if catchAll then ["*"] else []) text.toList ∧
    (catchAll = false → segments.getLast? ≠ some .any)

theorem forall₂_isWritten_iff {segments : List Segment} {ps : List String} :
    List.Forall₂ Segment.IsWritten segments ps ↔ ps.map Segment.ofText = segments := by
  constructor
  · intro h
    induction h with
    | nil => rfl
    | cons hs _ ih => rw [List.map_cons, Segment.ofText_of_isWritten hs, ih]
  · rintro rfl
    induction ps with
    | nil => exact .nil
    | cons p ps ih => exact .cons (Segment.ofText_eq_iff.mp rfl) ih

theorem getLast?_map_ofText {ps : List String} :
    (ps.map Segment.ofText).getLast? = some .any ↔ ps.getLast? = some "*" := by
  have hany : ∀ text, Segment.ofText text = .any ↔ text = "*" := by
    intro text
    rw [Segment.ofText_eq_iff]
    constructor
    · intro h
      cases h
      rfl
    · rintro rfl
      exact .any
  cases h : ps.getLast? with
  | none => simp [List.getLast?_map, h]
  | some text => simp [List.getLast?_map, h, hany]

theorem segments_ofText (text : String) :
    (ofText text).segments = (pieces (cutStar (normal text)).1).map Segment.ofText := by
  dsimp only [ofText]

theorem catchAll_ofText (text : String) : (ofText text).catchAll = (cutStar (normal text)).2 := by
  dsimp only [ofText]

/-- **Every text is written as the template that it denotes.** -/
theorem isWritten_ofText (text : String) :
    IsWritten (ofText text).segments (ofText text).catchAll text := by
  rw [segments_ofText, catchAll_ofText]
  obtain ⟨hpieces, hlast⟩ := pieces_cutStar (getLast?_normal text)
  rw [pieces_normal] at hpieces
  obtain ⟨hslashed, hpiece⟩ := slashed_pieces text.toList
  rw [String.ofList_toList, hpieces] at hslashed hpiece
  refine ⟨_, forall₂_isWritten_iff.mpr rfl, fun s hs => hpiece s (List.mem_append_left _ hs),
    hslashed, fun hcatch => ?_⟩
  rw [Ne, getLast?_map_ofText]
  exact hlast hcatch

/-- **A template is read as it was written**, whatever slashes are added. -/
theorem ofText_of_isWritten {segments : List Segment} {catchAll : Bool} {text : String}
    (h : IsWritten segments catchAll text) :
    (ofText text).segments = segments ∧ (ofText text).catchAll = catchAll := by
  obtain ⟨ps, hps, hpiece, hslashed, hlast⟩ := h
  rw [forall₂_isWritten_iff] at hps
  subst hps
  have hstar : IsPiece "*" := ⟨by decide, by decide⟩
  have hread : pieces text = ps ++ if catchAll then ["*"] else [] := by
    have hread := pieces_of_slashed hslashed fun s hs => by
      rcases List.mem_append.mp hs with hs | hs
      · exact hpiece s hs
      · split at hs
        · rw [List.mem_singleton.mp hs]
          exact hstar
        · cases hs
    rwa [String.ofList_toList] at hread
  obtain ⟨hcut, hcutLast⟩ := pieces_cutStar (getLast?_normal text)
  rw [pieces_normal, hread] at hcut
  rw [segments_ofText, catchAll_ofText]
  -- both splits of the pieces have a star behind them, or neither has
  cases hwas : (cutStar (normal text)).2 <;> cases catchAll <;>
    simp only [hwas, Bool.false_eq_true, if_true, if_false, List.append_nil] at hcut
  · exact ⟨by rw [hcut], rfl⟩
  · refine absurd ?_ (hcutLast hwas)
    rw [← hcut, List.getLast?_concat]
  · refine absurd ?_ (hlast rfl)
    rw [getLast?_map_ofText, hcut, List.getLast?_concat]
  · exact ⟨by rw [List.append_inj_left' hcut rfl], rfl⟩

end Template

end HttpDispatch
