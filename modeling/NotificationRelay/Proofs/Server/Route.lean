import Mathlib.Data.List.Basic
import Mathlib.Data.String.Basic
import NotificationRelay.Server.Route

/-! Where publishing stands among the paths. A path is split at its slashes; put together again, its
parts are the path itself, so no other one leads there. -/
namespace NotificationRelay

namespace Text

open String

/-- A separator of one character is found where that character stands. -/
theorem splitOnAux_eq (s : String) (c : Char) (b i : Pos.Raw) (parts : List String) :
    splitOnAux s (ofList [c]) b i 0 parts = splitAux s (· == c) b i parts := by
  have first : Pos.Raw.get (ofList [c]) 0 = c := by simp [Pos.Raw.get, Pos.Raw.utf8GetAux]
  have next : Pos.Raw.next (ofList [c]) 0 = ⟨c.utf8Size⟩ := by
    rw [Pos.Raw.next, first, Pos.Raw.zero_add_char_eq]
  have last : Pos.Raw.atEnd (ofList [c]) ⟨c.utf8Size⟩ := by simp [Pos.Raw.atEnd]
  fun_induction splitAux s (· == c) b i parts with
  | case1 b i parts ended => rw [splitOnAux, if_pos ended]
  | case2 b i parts inside _ hit i' ih =>
    have back : i'.unoffsetBy ⟨c.utf8Size⟩ = i := by
      simp [i', Pos.Raw.next, eq_of_beq hit, Pos.Raw.unoffsetBy]
    rw [splitOnAux, if_neg inside, first, if_pos hit, next, if_pos last, back]
    exact ih
  | case3 b i parts inside _ miss ih =>
    rw [splitOnAux, if_neg inside, first, if_neg miss]
    exact ih

theorem splitOn_ofList (s : String) (c : Char) :
    s.splitOn (ofList [c]) = (s.toList.splitOn c).map ofList := by
  have nonempty : (ofList [c] == "") = false := by simp
  rw [splitOn, nonempty, splitOnAux_eq]
  exact splitToList_of_valid s (· == c)

theorem eq_of_splitOn {s : String} {c : Char} {parts : List (List Char)}
    (split : s.splitOn (ofList [c]) = parts.map ofList) : s = ofList ([c].intercalate parts) := by
  rw [splitOn_ofList] at split
  have same : s.toList.splitOn c = parts :=
    List.map_injective_iff.mpr (fun _ _ => ofList_inj.mp) split
  rw [← same, List.intercalate_splitOn, ofList_toList]

end Text

namespace Server.Route

theorem ofPath_eq_publish {path : String} :
    ofPath path = some .publish ↔ path = "/api/v1/publish" := by
  constructor
  · intro found
    unfold ofPath at found
    split at found
    case h_5 parts =>
      exact @Text.eq_of_splitOn path '/' [[], "api".toList, "v1".toList, "publish".toList] parts
    case h_7 kind resource _ =>
      split at found
      · cases found
      · obtain ⟨_, _, other⟩ := Option.map_eq_some_iff.mp found
        cases other
    all_goals cases found
  · rintro rfl
    have parts := Text.splitOn_ofList "/api/v1/publish" '/'
    rw [ofPath, parts]
    decide

end Server.Route

end NotificationRelay
