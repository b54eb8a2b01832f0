import Chip8.Terminal.Canvas
import Mathlib.Data.List.Induction

/-!
The points of a frame are another form of the frame.

A frame is a list of pixels of any length, laid out in rows of 64. The points are those of the set
pixels, in the order of their places in the list (`points_eq`), and a point tells the place that it
stands for (`place_ofPlace`). So the points give back the places of the set pixels, and with the length
of the frame the frame. A picture that is updated keeps nothing of the frames before.
-/

namespace Chip8.Terminal

/-- The point of the pixel at a place in the list of pixels. -/
def Point.ofPlace (place : Nat) : Point := ⟨(place % 64 : Nat), -(place / 64 : Nat)⟩

/-- The place in the list of pixels that a point stands for. -/
def Point.place (p : Point) : Int := 64 * -p.y + p.x

/-- The places of the set pixels, in increasing order. -/
def setPlaces (pixels : List Bool) : List Nat :=
  (List.range pixels.length).filter fun place => pixels[place]? = some true

theorem Point.place_ofPlace (place : Nat) : (ofPlace place).place = place := by
  simp only [ofPlace, Point.place]
  omega

theorem Point.ofPlace_injective : Function.Injective ofPlace := by
  intro place place' h
  have hplace := congrArg Point.place h
  rw [place_ofPlace, place_ofPlace] at hplace
  exact Int.ofNat.inj hplace

theorem mem_setPlaces {pixels : List Bool} {place : Nat} :
    place ∈ setPlaces pixels ↔ pixels[place]? = some true := by
  simp only [setPlaces, List.mem_filter, List.mem_range, decide_eq_true_eq, and_iff_right_iff_imp]
  intro h
  exact (List.getElem?_eq_some_iff.mp h).1

theorem pairwise_setPlaces (pixels : List Bool) : (setPlaces pixels).Pairwise (· < ·) :=
  List.pairwise_lt_range.filter _

theorem setPlaces_append_singleton (pixels : List Bool) (isSet : Bool) :
    setPlaces (pixels ++ [isSet]) =
      setPlaces pixels ++ if isSet then [pixels.length] else [] := by
  have hfront : ∀ place ∈ List.range pixels.length,
      decide ((pixels ++ [isSet])[place]? = some true) = decide (pixels[place]? = some true) := by
    intro place hplace
    rw [List.getElem?_append_left (List.mem_range.mp hplace)]
  unfold setPlaces
  rw [List.length_append, List.length_singleton, List.range_succ, List.filter_append,
    List.filter_congr hfront]
  cases isSet <;> simp

theorem points_append_singleton (pixels : List Bool) (isSet : Bool) :
    points (pixels ++ [isSet]) =
      points pixels ++ if isSet then [Point.ofPlace pixels.length] else [] := by
  unfold points
  rw [List.zipIdx_append, List.filterMap_append, Nat.zero_add]
  cases isSet <;> rfl

/-- The points are those of the set pixels, in the order of their places. -/
theorem points_eq (pixels : List Bool) : points pixels = (setPlaces pixels).map Point.ofPlace := by
  induction pixels using List.reverseRecOn with
  | nil => rfl
  | append_singleton pixels isSet ih =>
    rw [points_append_singleton, setPlaces_append_singleton, List.map_append, ih]
    cases isSet <;> rfl

theorem map_place_points (pixels : List Bool) :
    (points pixels).map Point.place = (setPlaces pixels).map Nat.cast := by
  rw [points_eq, List.map_map]
  exact List.map_congr_left fun place _ => Point.place_ofPlace place

/-- Frames of one length with the same set pixels are the same. -/
theorem eq_of_setPlaces_eq {pixels pixels' : List Bool} (hlength : pixels.length = pixels'.length)
    (h : setPlaces pixels = setPlaces pixels') : pixels = pixels' := by
  apply List.ext_getElem hlength
  intro place hplace hplace'
  have hiff : pixels[place]? = some true ↔ pixels'[place]? = some true := by
    rw [← mem_setPlaces, ← mem_setPlaces, h]
  rw [List.getElem?_eq_getElem hplace, List.getElem?_eq_getElem hplace', Option.some_inj,
    Option.some_inj] at hiff
  exact Bool.eq_iff_iff.mpr hiff

/-- Points that hold what a frame shows. -/
structure Encodes (pixels : List Bool) (points : List Point) : Prop where
  /-- The points are those of the set pixels and no others. -/
  mem_iff : ∀ p, p ∈ points ↔
    ∃ place : Nat, pixels[place]? = some true ∧ p = ⟨(place % 64 : Nat), -(place / 64 : Nat)⟩
  nodup : points.Nodup
  /-- They go back to the places of the set pixels, in increasing order. -/
  places : points.map Point.place = (setPlaces pixels).map Nat.cast

theorem encodes_points (pixels : List Bool) : Encodes pixels (points pixels) := by
  refine ⟨fun p => ?_, ?_, map_place_points pixels⟩
  · rw [points_eq, List.mem_map]
    simp only [mem_setPlaces, Point.ofPlace]
    constructor
    · rintro ⟨place, hset, rfl⟩
      exact ⟨place, hset, rfl⟩
    · rintro ⟨place, hset, rfl⟩
      exact ⟨place, hset, rfl⟩
  · rw [points_eq]
    exact ((pairwise_setPlaces pixels).imp Nat.ne_of_lt).map Point.ofPlace
      fun _ _ hne heq => hne (Point.ofPlace_injective heq)

namespace Picture

/-- The points after each of some frames that are shown one after another. -/
def shown (picture : Picture) : List (List Bool) → List (List Point)
  | [] => []
  | pixels :: frames =>
    let updated := picture.update pixels
    updated.points :: updated.shown frames

theorem points_update (picture : Picture) (pixels : List Bool) :
    (picture.update pixels).points = Terminal.points pixels :=
  List.nil_append _

theorem shown_eq_map (picture : Picture) (frames : List (List Bool)) :
    picture.shown frames = frames.map Terminal.points := by
  induction frames generalizing picture with
  | nil => rfl
  | cons pixels frames ih => rw [shown, List.map_cons, points_update, ih]

/-- Whatever frames were shown before, the points after a frame are those of this frame: they encode
it, and frames of one length with the same points are the same. -/
theorem points_encode_frame (picture : Picture) (frames : List (List Bool)) :
    picture.shown frames = frames.map Terminal.points ∧
      (∀ pixels, Encodes pixels (Terminal.points pixels)) ∧
      ∀ pixels pixels' : List Bool,
        pixels = pixels' ↔
          pixels.length = pixels'.length ∧ Terminal.points pixels = Terminal.points pixels' := by
  refine ⟨shown_eq_map picture frames, encodes_points, fun pixels pixels' => ⟨?_, ?_⟩⟩
  · rintro rfl
    exact ⟨rfl, rfl⟩
  · rintro ⟨hlength, hpoints⟩
    apply eq_of_setPlaces_eq hlength
    rw [points_eq, points_eq] at hpoints
    exact (List.map_inj_right fun _ _ heq => Point.ofPlace_injective heq).mp hpoints

example : Terminal.points ([true] ++ List.replicate 63 false ++ [true, true]) =
    [⟨0, 0⟩, ⟨0, -1⟩, ⟨1, -1⟩] := by
  decide

end Picture

end Chip8.Terminal
