/-!
Blank characters, and the two things they delimit: the inside of a text and its words.
-/

namespace PCode.Text

/-- The Unicode property White_Space. -/
def isBlank (c : Char) : Bool :=
  let n := c.toNat
  (9 ≤ n && n ≤ 13) || n == 0x20 || n == 0x85 || n == 0xA0 || n == 0x1680 ||
    (0x2000 ≤ n && n ≤ 0x200A) || n == 0x2028 || n == 0x2029 || n == 0x202F || n == 0x205F ||
    n == 0x3000

def trim (cs : List Char) : List Char :=
  ((cs.dropWhile isBlank).reverse.dropWhile isBlank).reverse

/-- The maximal blank-free runs, in order. -/
def words (cs : List Char) : List (List Char) :=
  match _h : cs.dropWhile isBlank with
  | [] => []
  | c :: rest =>
    (c :: rest.takeWhile (fun d => !isBlank d)) :: words (rest.dropWhile (fun d => !isBlank d))
termination_by cs.length
decreasing_by
  have h₁ := (List.dropWhile_sublist (fun d => !isBlank d) (l := rest)).length_le
  have h₂ := (List.dropWhile_sublist isBlank (l := cs)).length_le
  rw [_h, List.length_cons] at h₂
  omega

end PCode.Text
