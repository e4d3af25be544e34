import Catalogue.Text.Blank
import Catalogue.Text.Case

/-! The address to which a server is bound.  Loopback names and addresses are taken, every other one
is refused. -/

namespace Catalogue.Launch

open Text

/-- The address where none is given. -/
def defaultHost : String := "127.0.0.1"

/-- What stands before an IPv4 address that is mapped into IPv6. -/
def mappedMark : List Char := "::ffff:".toList

/-- What follows the last IPv4-mapped mark in `cs`, and `last` where there is none. -/
def afterLastMark (last cs : List Char) : List Char :=
  match cs with
  | [] => last
  | c :: rest =>
    if mappedMark.isPrefixOf (c :: rest) then
      afterLastMark (rest.drop (mappedMark.length - 1)) (rest.drop (mappedMark.length - 1))
    else afterLastMark last rest
termination_by cs.length
decreasing_by all_goals simp; try omega

/-- A host without blanks around it; the default where nothing is left. -/
def trimmedHost (candidate : String) : String :=
  let host := trim candidate
  if host = "" then defaultHost else host

/-- A host without the marks of an IPv4-mapped IPv6 address. -/
def unmapped (host : String) : String :=
  if mappedMark.isPrefixOf host.toList then String.ofList (afterLastMark [] host.toList) else host

/-- The address to which a server is bound; nothing where the host is not this machine. -/
def bindHost? (candidate : String) : Option String :=
  let host := toLower (trimmedHost candidate)
  let address := unmapped host
  if host = "localhost" ∨ address = "::1" then some defaultHost
  else if address.startsWith "127." then some address
  else none

/-- What is said of a host that is refused. -/
def refusal (candidate : String) : String :=
  "Refusing to bind API server to non-loopback host '" ++ candidate
    ++ "'. The archive only serves on localhost."

end Catalogue.Launch
