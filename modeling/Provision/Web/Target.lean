import Provision.Text.Utf8
import Provision.Web.Host
import Provision.Web.Percent

/-! # Targets

What a request is sent to is an address: a scheme, a host and a path, of which the first two may be
missing, and a query that no answer depends on. A path is an address too. So it is cut three times,
and what is then left of a scheme and a host belongs to the path. -/

namespace Provision.Web

structure Address where
  scheme : List Char
  authority : List Char
  path : List Char

namespace Address

def isQueryMark (c : Char) : Bool :=
  c = '?' || c = '#'

/-- Control characters that an address may be broken up with. -/
def isIgnored (c : Char) : Bool :=
  c = '\t' || c = '\r' || c = '\n'

def isSchemeChar (c : Char) : Bool :=
  c.isAlphanum || c = '+' || c = '-' || c = '.'

/-- A scheme in small letters, and what follows its colon. -/
def cutScheme (cs : List Char) : List Char × List Char :=
  let scheme := cs.takeWhile isSchemeChar
  match cs.drop scheme.length with
  | ':' :: rest => if cs.head?.any Char.isAlpha then (scheme.map Char.toLower, rest) else ([], cs)
  | _ => ([], cs)

/-- What stands behind two slashes, and what follows it. -/
def cutAuthority : List Char → List Char × List Char
  | '/' :: '/' :: cs =>
    let authority := cs.takeWhile fun c => c ≠ '/' && !isQueryMark c
    (authority, cs.drop authority.length)
  | cs => ([], cs)

/-- Blanks in front do not count. -/
def ofChars (cs : List Char) : Except AddressFault Address := do
  let cs := (cs.dropWhile (· ≤ ' ')).filter (!isIgnored ·)
  let (scheme, cs) := cutScheme cs
  let (authority, cs) := cutAuthority cs
  Authority.check authority
  return ⟨scheme, authority, cs.takeWhile (!isQueryMark ·)⟩

def authorityText (a : Address) : Except AddressFault (List Char) :=
  (Authority.ofChars a.authority).text

/-- An address as it is sent. -/
def text (a : Address) : Except AddressFault (List Char) := do
  let authority ← a.authorityText
  let isSlashed := !authority.isEmpty || "//".toList.isPrefixOf a.path
  let rest := if isSlashed then '/' :: '/' :: authority ++ a.path else a.path
  return if a.scheme.isEmpty then rest else a.scheme ++ ':' :: rest

end Address

structure Target where
  /-- The path, decoded, with one slash in front. -/
  path : List Char
  /-- Whether a socket is asked for rather than an answer. -/
  isSocket : Bool

namespace Target

def decoded (path : List Char) : List Char :=
  '/' :: (Utf8.decode (Percent.bytes path)).dropWhile (· = '/')

def isSocketScheme (scheme : List Char) : Bool :=
  scheme = ['w', 's'] || scheme = ['w', 's', 's']

def ofString (s : String) : Except AddressFault Target := do
  let outer ← Address.ofChars s.toList
  let middle ← Address.ofChars outer.path
  let inner ← Address.ofChars middle.path
  let path ← inner.text
  let _ ← outer.authorityText
  return ⟨decoded path, isSocketScheme outer.scheme⟩

end Target

end Provision.Web
