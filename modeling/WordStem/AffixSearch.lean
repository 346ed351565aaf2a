import WordStem.AffixTable

/-! # Searching an affix table

The search finds the greatest entry that is not above the text at the cursor by halving the
table, and then walks from that entry along its links until it meets an affix that matches and
whose guard accepts. Comparisons start at the bytes that both ends of the current interval are
known to share with the text. The walk only ever follows links to earlier entries, so it ends on
every table; a link that leads elsewhere is reported as a defect. -/
namespace WordStem.AffixTable

variable {Context : Type}

/-- Reads a text against a key and answers how many bytes agree from the start and whether the
text falls below the key, either by a smaller byte or by ending first. -/
def readAgainst : List UInt8 → List UInt8 → Nat × Bool
  | _, [] => (0, false)
  | [], _ :: _ => (0, true)
  | byte :: text, expected :: key =>
    if byte = expected then
      let (agreed, below) := readAgainst text key
      (agreed + 1, below)
    else
      (0, decide (byte < expected))

/-- Compares a text with a key when a number of bytes is already known to agree. -/
def compareBeyond (known : Nat) (text key : List UInt8) : Nat × Bool :=
  let (agreed, below) := readAgainst (text.drop known) (key.drop known)
  (known + agreed, below)

/-- Halves the interval from `low` to `high` until it holds one entry, which is not above the
text unless it is the first one. Answers that entry and how many of its bytes agree with the
text. The first entry is compared only when the interval has shrunk to it. -/
def bisect (keys : Array (List UInt8)) (text : List UInt8) (low high sharedLow sharedHigh : Nat) :
    Nat × Nat :=
  if high - low ≤ 1 then
    if low = 0 then
      let (agreed, below) := compareBeyond (min sharedLow sharedHigh) text (keys.getD 0 [])
      if below then (0, sharedLow) else (0, agreed)
    else
      (low, sharedLow)
  else
    let middle := low + (high - low) / 2
    let (agreed, below) := compareBeyond (min sharedLow sharedHigh) text (keys.getD middle [])
    if below then
      bisect keys text low middle sharedLow agreed
    else
      bisect keys text middle high agreed sharedHigh
termination_by high - low

/-- Puts the cursor past an affix that is read from a starting position. -/
def passOver (affix : Affix Context) (direction : Direction) (start : Nat) :
    RuleM Context Unit :=
  RuleM.modifyBuffer fun buffer =>
    { buffer with cursor := start }.advance direction (byteLength affix.literal.toList)

/-- Whether an entry whose first `agreed` bytes agree with the text is accepted. The whole affix
has to agree; a guard then runs with the cursor past the affix, and the cursor is put there again
after it. -/
def accepts (affix : Affix Context) (direction : Direction) (start agreed : Nat) :
    RuleM Context Bool :=
  if agreed < byteLength affix.literal.toList then
    return false
  else
    match affix.guard? with
    | none => do
      passOver affix direction start
      return true
    | some guard => do
      passOver affix direction start
      let accepted ← guard
      passOver affix direction start
      return accepted

/-- Walks along the links from an entry whose first `agreed` bytes agree with the text. Answers
the tag of the accepted entry, with the cursor past its affix, or zero with the cursor put back
to where the search began. -/
def walk (table : AffixTable Context) (direction : Direction) (start agreed : Nat) (index : Nat) :
    RuleM Context Int := do
  let putBack : RuleM Context Unit := RuleM.modifyBuffer ({ · with cursor := start })
  match table.affixes[index]? with
  | none =>
    putBack
    return 0
  | some affix =>
    if ← accepts affix direction start agreed then
      return affix.tag
    else
      match affix.link with
      | .negSucc _ =>
        putBack
        return 0
      | .ofNat target =>
        if target < index then
          walk table direction start agreed target
        else
          putBack
          RuleM.fail (.brokenChain table.name index)
termination_by index

/-- Finds the longest affix of the table that the word continues with in a direction. -/
def find (table : AffixTable Context) (direction : Direction) : RuleM Context Int := do
  if table.affixes.isEmpty then
    return 0
  let buffer ← RuleM.buffer
  let keys := (table.affixes.map (key direction)).toArray
  let (index, agreed) := bisect keys (buffer.view direction) 0 keys.size 0 0
  walk table direction buffer.cursor agreed index

end WordStem.AffixTable
