namespace MemberStubs.Text

/-! A text is cut into lines after each line feed. `linesWithEnds` loses nothing; `lines` drops
each line feed together with one carriage return before it. Neither yields an empty last line. -/

def linesWithEnds : List Char → List (List Char)
  | [] => []
  | c :: rest =>
      if c = '\n' then [c] :: linesWithEnds rest
      else
        match linesWithEnds rest with
        | [] => [[c]]
        | line :: later => (c :: line) :: later

theorem flatten_linesWithEnds (chars : List Char) : (linesWithEnds chars).flatten = chars := by
  fun_induction linesWithEnds chars with
  | case1 => rfl
  | case2 rest induction => simp [induction]
  | case3 c rest _ empty induction => simp_all
  | case4 c rest _ line later split induction => simp_all

/-- A line without its end: a line feed, or a carriage return and a line feed. -/
def dropLineEnd (line : List Char) : List Char :=
  match line.reverse with
  | '\n' :: '\r' :: reversed => reversed.reverse
  | '\n' :: reversed => reversed.reverse
  | _ => line

def lines (chars : List Char) : List (List Char) :=
  (linesWithEnds chars).map dropLineEnd

example : lines "a\r\n\nb\r".toList = ["a".toList, [], "b\r".toList] := by decide

/-- The end of the first line decides the newline of a text; a text of one line has a bare line
feed. -/
def detectNewline (source : List Char) : String :=
  match (linesWithEnds source).head? with
  | none => "\n"
  | some line =>
      match line.reverse with
      | '\n' :: '\r' :: _ => "\r\n"
      | _ => "\n"

end MemberStubs.Text
