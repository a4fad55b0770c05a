import DbApi.Common.Util
import DbApi.Concurrency.LockManager

namespace DbApi.Concurrency
open Library

/-- The loop behind the opening of a block comment. It ends after the first star
and slash, or with the text. -/
def skipBlockComment : Bytes → Bytes
  | [] => []
  | 42 :: 47 :: rest => rest
  | _ :: rest => skipBlockComment rest

/-- One round of the loop of `skip_leading_sql_noise`: where it stops, and its
flag `skipped`. -/
def noiseRound (sql : Bytes) : Bytes × Bool :=
  match sql.dropWhile isSpace with
  | 45 :: 45 :: rest => (rest.dropWhile (· != lineFeed), true)
  | 47 :: 42 :: rest => (skipBlockComment rest, true)
  | rest => (rest, sql.takeWhile isSpace ≠ [])

theorem skipBlockComment_length (text : Bytes) :
    (skipBlockComment text).length ≤ text.length := by
  fun_induction skipBlockComment text with
  | case1 => exact le_rfl
  | case2 rest => simp only [List.length_cons]; omega
  | case3 _ rest _ ih => simp only [List.length_cons]; omega

/-- A round that sets the flag has passed something. -/
theorem noiseRound_shorter {sql : Bytes} (h : (noiseRound sql).2 = true) :
    (noiseRound sql).1.length < sql.length := by
  have hlength := (List.dropWhile_suffix isSpace (l := sql)).length_le
  revert h
  unfold noiseRound
  split
  · rename_i rest heq
    intro _
    have := (List.dropWhile_suffix (· != lineFeed) (l := rest)).length_le
    simp only [heq, List.length_cons] at hlength
    dsimp only
    omega
  · rename_i rest heq
    intro _
    have := skipBlockComment_length rest
    simp only [heq, List.length_cons] at hlength
    dsimp only
    omega
  · intro h
    have hsplit := congrArg List.length (List.takeWhile_append_dropWhile (p := isSpace) (l := sql))
    have hne : sql.takeWhile isSpace ≠ [] := by simpa using h
    have := List.length_pos_of_ne_nil hne
    simp only [List.length_append] at hsplit
    dsimp only
    omega

def skipLeadingSqlNoise (sql : Bytes) : Bytes :=
  if (noiseRound sql).2 = true then skipLeadingSqlNoise (noiseRound sql).1 else (noiseRound sql).1
termination_by sql.length
decreasing_by exact noiseRound_shorter ‹_›

/-- No text at all is taken for a write, like every text that does not start with
`SELECT`. -/
def concurrencyLockModeFromSql : Option Bytes → ConcurrencyLockMode
  | none => .write
  | some sql =>
    let sql := skipLeadingSqlNoise (cString sql)
    if sql = [] then .write
    else
      let keyword := (clip 16 (sql.takeWhile isAlpha)).map toUpper
      if keyword = ascii "SELECT" then .read else .write

end DbApi.Concurrency
