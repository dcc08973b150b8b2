import GrammarComparison.Text.Width.Classes

/-! # The width of a line

How many columns a line of text takes on a terminal.  Most characters take one column, East Asian
wide characters and emoji two, combining marks none.  Some sequences take less than their characters
would alone: emoji joined or modified, letters of some scripts that form a ligature.  A line is read
from its end, so that each character is seen in the light of what follows it. -/

namespace GrammarComparison.Text

namespace Width

/-! ### Contexts -/

/-- A letter that the letter before it may join, together with what stands between them. -/
inductive Joining where
  | alef
  | lamed
  | lamedJoined
  | ya
  | yaJoined
  | yaVowel
  | tifinagh
  | tifinaghJoined
  | tifinaghLinked
  | lisuTone
  | orkhonI
  | orkhonIJoined
  | khmer
  deriving DecidableEq, Repr

/-- What follows a character, selectors aside. -/
inductive Follower where
  /-- Nothing that matters. -/
  | plain
  | lineFeed
  | letter (j : Joining)
  /-- The vowel signs E and AI of Kirat Rai. -/
  | kiratE
  | kiratAi
  | skinTone
  /-- One regional indicator, or several of them. -/
  | region
  | regions
  | emoji
  /-- A joiner and an emoji. -/
  | joined
  /-- A keycap before a joiner and an emoji. -/
  | joinedKeycap
  /-- Regional indicators before a joiner and an emoji: the first from the end, then an even or an
  odd number of them. -/
  | joinedRegion
  | joinedEvenRegions
  | joinedOddRegions
  /-- The end of a tag sequence before a joiner and an emoji, with the letters and digits so far. -/
  | joinedTags (letters digits : Nat)
  deriving DecidableEq, Repr

/-- What follows a character, and whether the text or the emoji selector stands between. -/
structure Context where
  follower : Follower
  text : Bool
  emoji : Bool
  deriving DecidableEq, Repr

namespace Context

/-- The context of a character that nothing of importance follows. -/
def plain : Context := ⟨.plain, false, false⟩

/-- The context of a character before `f`. -/
def before (f : Follower) : Context := ⟨f, false, false⟩

/-- Whether a letter that may be joined follows; then selectors do not hide it. -/
def isLetter (x : Context) : Bool :=
  match x.follower with
  | .letter _ => true
  | _ => false

/-- Whether a joiner and an emoji follow directly, or with a keycap between. -/
def isJoined (x : Context) : Bool := x.follower == .joined || x.follower == .joinedKeycap

/-- The context with the emoji selector before it. -/
def selectEmoji (x : Context) : Context :=
  if x.isLetter || (x.isJoined && !x.emoji) then { x with emoji := true }
  else ⟨.plain, false, true⟩

/-- The context with the text selector before it. -/
def selectText (x : Context) : Context :=
  if x.isLetter then { x with text := true } else ⟨.plain, true, false⟩

/-- The context without an emoji selector that applies to nothing. -/
def dropEmoji (x : Context) : Context := if x.isLetter then { x with emoji := false } else plain

end Context

/-! ### Single characters -/

/-- Whether the character with the emoji selector is an emoji. -/
def takesEmojiSelector (c : Char) : Bool :=
  inTable emojiOnDemandTable c || inTable textOnDemandTable c ||
    c.toNat = 0x1F21A || c.toNat = 0x1F22F

/-- Whether the character is between `lo` and `hi`. -/
def inRange (lo hi : Nat) (c : Char) : Bool := lo ≤ c.toNat && c.toNat ≤ hi

/-- Whether the character is a regional indicator. -/
def isRegion (c : Char) : Bool := inRange 0x1F1E6 0x1F1FF c

/-- The width of a character by itself. -/
def alone (c : Char) : Int :=
  if inTable zeroTable c then 0
  else if inTable wideTable c then 2
  else if c.toNat = 0x17D8 then 3
  else 1

/-- What the character before sees of a character by itself. -/
def contextOf (c : Char) : Context :=
  let n := c.toNat
  if n = 0xFE0F then ⟨.plain, false, true⟩
  else if n = 0xFE0E then ⟨.plain, true, false⟩
  else if inTable alefTable c then .before (.letter .alef)
  else if n = 0x05DC then .before (.letter .lamed)
  else if n = 0x1A10 then .before (.letter .ya)
  else if inTable tifinaghTable c then .before (.letter .tifinagh)
  else if inRange 0xA4FC 0xA4FD c then .before (.letter .lisuTone)
  else if n = 0x10C03 then .before (.letter .orkhonI)
  else if inTable subscriptTable c then .before (.letter .khmer)
  else if n = 0x16D67 then .before .kiratE
  else if n = 0x16D68 then .before .kiratAi
  else if inRange 0x1F3FB 0x1F3FF c then .before .skinTone
  else if isRegion c then .before .region
  else if inTable emojiTable c then .before .emoji
  else .plain

/-! ### Characters in context -/

/-- The joining letter after a joiner. -/
def Joining.join : Joining → Joining
  | .lamed => .lamedJoined
  | .ya => .yaJoined
  | .tifinagh => .tifinaghJoined
  | .orkhonI => .orkhonIJoined
  | j => j

/-- The columns that a character adds before a letter that may be joined, and its context, if the
two have to do with each other. -/
def beforeLetter (c : Char) (x : Context) (j : Joining) : Option (Int × Context) :=
  let n := c.toNat
  let joined : Option (Int × Context) := some (0, .plain)
  match j with
  | .alef =>
    if inTable lamTable c then joined
    else if inTable zeroTable c && !inTable unjoiningTable c then some (0, .before (.letter .alef))
    else none
  | _ =>
    if n = 0x200D then some (0, { x with follower := .letter j.join })
    else if inTable transparentTable c then some (0, x)
    else match j with
      | .lamedJoined => if n = 0x05D0 then joined else none
      | .khmer => if n = 0x17D2 then some (-1, .plain) else none
      | .yaJoined => if n = 0x1A17 then some (0, .before (.letter .yaVowel)) else none
      | .yaVowel => if n = 0x1A15 then joined else none
      | .tifinagh => if n = 0x2D7F then some (1, .before (.letter .tifinaghLinked)) else none
      | .tifinaghJoined =>
        if n = 0x2D7F then some (1, .before (.letter .tifinaghLinked))
        else if inTable tifinaghTable c then joined
        else none
      | .tifinaghLinked => if inTable tifinaghTable c then some (-1, .plain) else none
      | .lisuTone => if inRange 0xA4F8 0xA4FB c then joined else none
      | .orkhonIJoined => if n = 0x10C32 then joined else none
      | _ => none

/-- The columns that a character adds before a tag sequence, and its context. -/
def beforeTags (c : Char) (letters digits : Nat) : Option (Int × Context) :=
  if inRange 0xE0061 0xE007A c && digits == 0 && letters < 6 then
    some (0, .before (.joinedTags (letters + 1) 0))
  else if inRange 0xE0030 0xE0039 c &&
      (digits == 0 && letters ≤ 4 || digits == 1 || digits == 2) then
    some (0, .before (.joinedTags letters (digits + 1)))
  else if c.toNat = 0x1F3F4 && (digits == 0 && 3 ≤ letters || digits == 3) then
    some (0, .before .emoji)
  else none

/-- The columns that a character adds before a joiner and an emoji, and its context. -/
def beforeJoined (c : Char) : Option (Int × Context) :=
  if c.toNat = 0x20E3 then some (0, .before .joinedKeycap)
  else if isRegion c then some (1, .before .joinedRegion)
  else if inRange 0x1F3FB 0x1F3FF c then some (0, .before .skinTone)
  else if c.toNat = 0xE007F then some (0, .before (.joinedTags 0 0))
  else if inTable emojiTable c then some (0, .before .emoji)
  else none

/-- The columns that a character adds before the given context, and its own context, if the two have
to do with each other; selectors are dealt with. -/
def beforeFollower (c : Char) (x : Context) : Option (Int × Context) :=
  let n := c.toNat
  let joiner := if n = 0x200D then some (0, .before .joined) else none
  match x.follower with
  | .plain | .lineFeed | .joinedKeycap => none
  | .letter j => beforeLetter c x j
  | .kiratE =>
    if n = 0x16D63 || n = 0x16D69 then some (0, .plain)
    else if n = 0x16D67 then some (0, .before .kiratAi)
    else if n = 0x16D68 then some (1, .before .kiratE)
    else none
  | .kiratAi => if n = 0x16D63 then some (0, .plain) else none
  | .skinTone => if inTable tonedTable c then some (0, .before .emoji) else joiner
  | .region => if isRegion c then some (1, .before .regions) else none
  | .regions => if isRegion c then some (1, .before .regions) else joiner
  | .emoji => joiner
  | .joined => beforeJoined c
  | .joinedRegion => if isRegion c then some (-1, .before .joinedEvenRegions) else none
  | .joinedEvenRegions => if isRegion c then some (3, .before .joinedOddRegions) else joiner
  | .joinedOddRegions => if isRegion c then some (-1, .before .joinedEvenRegions) else joiner
  | .joinedTags letters digits => beforeTags c letters digits

/-- The columns that a character above U+00A0 adds before a context without emoji selector, and its
own context. -/
def beyondAscii (c : Char) (x : Context) : Int × Context :=
  let n := c.toNat
  if n = 0xFE0F then (0, x.selectEmoji)
  else if n = 0xFE0E then (0, x.selectText)
  else if x.text && inTable textOnDemandTable c then (1, .plain)
  else (beforeFollower c { x with text := false }).getD (alone c, contextOf c)

/-- The columns that a character up to U+00A0 adds, and its context: a carriage return before a line
feed adds none. -/
def ascii (c : Char) (x : Context) : Int × Context :=
  if c = '\n' then (1, .before .lineFeed)
  else if c = '\r' && x.follower == .lineFeed then (0, .plain)
  else (1, .plain)

/-- The columns that a character adds before the given context, and its own context. -/
def step (c : Char) (x : Context) : Int × Context :=
  if x.emoji && takesEmojiSelector c then (if x.isJoined then 0 else 2, .before .emoji)
  else
    let x := if x.emoji then x.dropEmoji else x
    if c.toNat ≤ 0xA0 then ascii c x else beyondAscii c x

/-! ### Lines -/

/-- The columns of a line, and the context before it. -/
def measure (cs : List Char) : Int × Context :=
  cs.foldr (fun c r => let (n, x) := step c r.2; (r.1 + n, x)) (0, .plain)

end Width

/-- The number of columns of a line. -/
def width (cs : List Char) : Nat := (Width.measure cs).1.toNat

end GrammarComparison.Text
