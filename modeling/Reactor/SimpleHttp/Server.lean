import Reactor.HttpC.HttpRequest
import Reactor.Lib.Infix

/-!
How the first of the HTTP servers reads a request and answers its first line: `recvHttpRequest`
and `parseRequestLine` of `old/SimpleHttp/server.c`.

`hexToDec`, `decodeMsg` and `getFileType` are, word for word, those of the C version. What
`sendFile` and `sendDir` send is left out.
-/

namespace Reactor.SimpleHttp

open Lib.Infix
open Http (SendData Stat toInt cstr ascii decimal isGet getFileType SP CR LF)
open HttpC (Fault)

/-! ### The request line -/

/-- The arrays of `parseRequestLine`, with what happens to be in them when it is called. -/
structure Locals where
  method : List Byte
  path : List Byte
  method_length : method.length = 12
  path_length : path.length = 1024

/-- `decodeMsg(path, path)`, which reads on behind an array without a null byte. -/
def decodeMsg (path : List Byte) : Except Fault (List Byte) :=
  if 0 ∈ path then .ok (HttpC.decodeMsg path) else .error .memory

def isspace (c : Byte) : Bool := c = SP ∨ (9 ≤ c ∧ c ≤ 13)

/-- A string and its null byte at the start of an array. -/
def putString (s array : List Byte) : Except Fault (List Byte) :=
  if s.length < array.length then .ok (s ++ 0 :: array.drop (s.length + 1)) else .error .memory

/-- `sscanf(line, "%[^ ] %[^ ]", method, path)`. A conversion that matches nothing ends it. -/
def sscanf (line method path : List Byte) : Except Fault (List Byte × List Byte) :=
  let field := line.takeWhile (· ≠ SP)
  let rest := (line.dropWhile (· ≠ SP)).dropWhile isspace
  if field = [] then .ok (method, path)
  else do
    let method ← putString field method
    let field := rest.takeWhile (· ≠ SP)
    if field = [] then .ok (method, path)
    else do
      let path ← putString field path
      .ok (method, path)

/-- The name that is looked up, which is read from the second byte of the array on. -/
def fileOf (path : List Byte) : Except Fault (List Byte) :=
  if cstr path = [47] then .ok (ascii "./")
  else if 0 ∈ path.drop 1 then .ok (cstr (path.drop 1))
  else .error .memory

/-- The text that `sendHeadMsg` sends. -/
def sendHeadMsg (stat : ℕ) (descr type : List Byte) (length : ℤ) : List Byte :=
  ascii "http/1.1 " ++ decimal stat ++ ascii " " ++ descr ++ ascii "\r\n" ++
    ascii "content-type: " ++ type ++ ascii "\r\n" ++
    ascii "content-length: " ++ decimal length ++ ascii "\r\n\r\n"

/-- An answer: the name given to `stat`, the head, and which file or directory follows. -/
structure Answer where
  file : List Byte
  head : List Byte
  body : SendData × List Byte
  deriving DecidableEq

/-- The answer to a file, or to the lack of one. -/
def answerTo (file : List Byte) : Option Stat → Answer
  | none =>
    { file := file
      head := sendHeadMsg 404 (ascii "Not Found") (getFileType (ascii ".html")) (-1)
      body := (.sendFile, ascii "404.html") }
  | some st =>
    if st.isDir then
      { file := file
        head := sendHeadMsg 200 (ascii "OK") (getFileType (ascii ".html")) (-1)
        body := (.sendDir, file) }
    else
      { file := file
        head := sendHeadMsg 200 (ascii "OK") (getFileType file) (toInt st.st_size)
        body := (.sendFile, file) }

/-- `parseRequestLine`, without an answer where it returns -1. The path is decoded before it is
there. -/
def parseRequestLine (locals : Locals) (stat : List Byte → Option Stat) (line : List Byte) :
    Except Fault (Option Answer) := do
  let path ← decodeMsg locals.path
  let (method, path) ← sscanf line locals.method path
  if ¬ isGet method then .ok none
  else do
    let file ← fileOf path
    .ok (some (answerTo file (stat file)))

/-! ### Receiving -/

def tmpSize : ℕ := 1024
def bufferSize : ℕ := 4096

/-- What a call of `recv` that receives something puts into `tmp`. -/
abbrev Chunk := {tmp : List Byte // tmp ≠ [] ∧ tmp.length ≤ tmpSize}

/-- `totle` and `buffer`. -/
structure Received where
  totle : ℕ
  buffer : List Byte

/-- A round of the loop. It leaves `totle` as it is. -/
def Received.copy (x : Received) (tmp : Chunk) : Received :=
  if x.totle + tmp.1.length < bufferSize then
    { x with
      buffer := x.buffer.take x.totle ++ tmp.1 ++ x.buffer.drop (x.totle + tmp.1.length) }
  else x

def EAGAIN : Errno := 11

/-- How `recvHttpRequest` ends. -/
inductive Outcome
  /-- a line was handed to `parseRequestLine` -/
  | parsed (line : List Byte) (answer : Option Answer)
  /-- the client has closed the connection, and the descriptor is closed -/
  | closed
  | error

/-- `recvHttpRequest`, when `recv` receives some chunks, and then nothing for some reason. Without
a line end in the buffer, the null byte is stored at an offset made of a null pointer. -/
def recvHttpRequest (locals : Locals) (stat : List Byte → Option Stat) (chunks : List Chunk)
    (last : Except Errno Unit) : Except Fault Outcome :=
  let x := chunks.foldl Received.copy ⟨0, List.replicate bufferSize 0⟩
  match last with
  | .ok () => .ok .closed
  | .error errno =>
    if errno = EAGAIN then
      match find (cstr x.buffer) [CR, LF] with
      | none => .error .memory
      | some pos => do
        let line := cstr (x.buffer.set pos 0)
        let answer ← parseRequestLine locals stat line
        .ok (.parsed line answer)
    else .ok .error

end Reactor.SimpleHttp
