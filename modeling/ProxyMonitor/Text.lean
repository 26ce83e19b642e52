namespace ProxyMonitor.Text

/-- The characters with the White_Space property. -/
def isBlank (c : Char) : Bool :=
  (9 ≤ c.val ∧ c.val ≤ 13) ∨ c.val = 0x20 ∨ c.val = 0x85 ∨ c.val = 0xA0 ∨ c.val = 0x1680 ∨
    (0x2000 ≤ c.val ∧ c.val ≤ 0x200A) ∨ c.val = 0x2028 ∨ c.val = 0x2029 ∨ c.val = 0x202F ∨
    c.val = 0x205F ∨ c.val = 0x3000

def trimStart (cs : List Char) : List Char := cs.dropWhile isBlank

def trimEnd (cs : List Char) : List Char := (cs.reverse.dropWhile isBlank).reverse

def trim (cs : List Char) : List Char := trimEnd (trimStart cs)

theorem trimStart_length_le (cs : List Char) : (trimStart cs).length ≤ cs.length :=
  (List.dropWhile_sublist _).length_le

def splitWord (cs : List Char) : List Char × Option (List Char) :=
  (cs.takeWhile (!isBlank ·), (cs.dropWhile (!isBlank ·)).tail?)

def words : List Char → List (List Char)
  | [] => []
  | c :: cs =>
    if isBlank c then words cs
    else match words cs with
      | [] => [[c]]
      | word :: rest =>
        if cs.head?.all isBlank then [c] :: word :: rest else (c :: word) :: rest

/-- The pieces between line ends; an end of the last line begins no further one. -/
def lines : List Char → List (List Char)
  | [] => []
  | c :: cs =>
    if c = '\n' then [] :: lines cs
    else match lines cs with
      | [] => [[c]]
      | line :: rest => (c :: line) :: rest

def splitAt? (mark : Char) (cs : List Char) : Option (List Char × List Char) :=
  match cs.dropWhile (· ≠ mark) with
  | [] => none
  | _ :: rest => some (cs.takeWhile (· ≠ mark), rest)

end ProxyMonitor.Text
