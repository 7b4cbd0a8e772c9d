import PickIndent.Text.Basic

/-!
# Keywords — the statements that shape the blocks of a program

A keyword says of the line that begins with it whether it opens a block, closes one, or both. Some
open a block only when a clause is left open at the end of the line (`inlineOnly`), and some may be
closed again by a statement on the same line (`closer?`).

Two questions of dialect are left to the user: whether keywords may be written in any case, and
whether `RETURN` ends a block.
-/

namespace PickIndent

structure Dialect where
  ignoreCase : Bool := false
  returnCloses : Bool := false
  deriving DecidableEq, Repr

/-- The statements that may carry a `THEN`, `ELSE` or `LOCKED` clause. -/
inductive ClauseStatement where
  | ifTest
  | get
  | input
  | locate
  | lock
  | matread
  | matreadl
  | matreadu
  | matwrite
  | matwriteu
  | openFile
  | openseq
  | procread
  | procwrite
  | read
  | readblk
  | readl
  | readnext
  | readseq
  | readt
  | readu
  | readv
  | readvl
  | readvu
  | rewind
  | seek
  | weof
  | writeblk
  | writeseq
  | writet
  deriving DecidableEq, Repr

def ClauseStatement.word : ClauseStatement → Text
  | .ifTest => "IF".toList
  | .get => "GET".toList
  | .input => "INPUT".toList
  | .locate => "LOCATE".toList
  | .lock => "LOCK".toList
  | .matread => "MATREAD".toList
  | .matreadl => "MATREADL".toList
  | .matreadu => "MATREADU".toList
  | .matwrite => "MATWRITE".toList
  | .matwriteu => "MATWRITEU".toList
  | .openFile => "OPEN".toList
  | .openseq => "OPENSEQ".toList
  | .procread => "PROCREAD".toList
  | .procwrite => "PROCWRITE".toList
  | .read => "READ".toList
  | .readblk => "READBLK".toList
  | .readl => "READL".toList
  | .readnext => "READNEXT".toList
  | .readseq => "READSEQ".toList
  | .readt => "READT".toList
  | .readu => "READU".toList
  | .readv => "READV".toList
  | .readvl => "READVL".toList
  | .readvu => "READVU".toList
  | .rewind => "REWIND".toList
  | .seek => "SEEK".toList
  | .weof => "WEOF".toList
  | .writeblk => "WRITEBLK".toList
  | .writeseq => "WRITESEQ".toList
  | .writet => "WRITET".toList

def ClauseStatement.all : List ClauseStatement :=
  [.ifTest, .get, .input, .locate, .lock, .matread, .matreadl, .matreadu, .matwrite, .matwriteu,
   .openFile, .openseq, .procread, .procwrite, .read, .readblk, .readl, .readnext, .readseq, .readt,
   .readu, .readv, .readvl, .readvu, .rewind, .seek, .weof, .writeblk, .writeseq, .writet]

inductive Keyword where
  | beginCase
  | endCase
  | endElse
  | endThen
  | elseClause
  | thenClause
  | caseBranch
  | forLoop
  | loop
  | untilTest
  | whileTest
  | clause (s : ClauseStatement)
  | blockEnd
  | nextFor
  | loopRepeat
  | returnJump
  deriving DecidableEq, Repr

namespace Keyword

/-- The words of a keyword, which any run of blanks may separate. -/
def words : Keyword → List Text
  | .beginCase => ["BEGIN".toList, "CASE".toList]
  | .endCase => ["END".toList, "CASE".toList]
  | .endElse => ["END".toList, "ELSE".toList]
  | .endThen => ["END".toList, "THEN".toList]
  | .elseClause => ["ELSE".toList]
  | .thenClause => ["THEN".toList]
  | .caseBranch => ["CASE".toList]
  | .forLoop => ["FOR".toList]
  | .loop => ["LOOP".toList]
  | .untilTest => ["UNTIL".toList]
  | .whileTest => ["WHILE".toList]
  | .clause s => [s.word]
  | .blockEnd => ["END".toList]
  | .nextFor => ["NEXT".toList]
  | .loopRepeat => ["REPEAT".toList]
  | .returnJump => ["RETURN".toList]

/-- The spelling of a keyword with one space between its words. -/
def text (k : Keyword) : Text := [' '].intercalate k.words

def opens : Keyword → Bool
  | .endCase | .blockEnd | .nextFor | .loopRepeat | .returnJump => false
  | _ => true

def closes (d : Dialect) : Keyword → Bool
  | .endCase | .endElse | .endThen | .elseClause | .untilTest | .whileTest | .blockEnd | .nextFor
  | .loopRepeat => true
  | .returnJump => d.returnCloses
  | _ => false

/-- Whether the keyword opens a block only on a line that ends in a continuation word. -/
def inlineOnly : Keyword → Bool
  | .endElse | .endThen | .elseClause | .thenClause | .clause _ => true
  | _ => false

/-- The keyword whose statement, on the same line, closes the block again. -/
def closer? : Keyword → Option Keyword
  | .forLoop => some .nextFor
  | .loop | .untilTest | .whileTest => some .loopRepeat
  | _ => none

/-- All keywords in the order in which they are tried, so that a keyword of two words comes before
the one that is its first word. -/
def table : List Keyword :=
  [.beginCase, .endCase, .endElse, .endThen, .elseClause, .thenClause, .caseBranch, .forLoop, .loop,
   .untilTest, .whileTest] ++ ClauseStatement.all.map .clause ++
  [.blockEnd, .nextFor, .loopRepeat, .returnJump]

/-- The words that leave a clause open at the end of a line. -/
def continuations : List Text := ["THEN".toList, "ELSE".toList, "DO".toList, "LOCKED".toList]

end Keyword

end PickIndent
