import IotRobot.Lib.Text
import Mathlib.Data.Nat.Digits.Defs

/-!
# IP literals

What `ipaddress.ip_address` of Python reads as an IPv4 or an IPv6 address.
-/

namespace IotRobot.Lib

set_option autoImplicit false

/-- A decimal number up to 255 without leading zeros. -/
def is_octet (text : List Char) : Bool :=
  text ≠ [] && text.all Char.isDigit && text.length ≤ 3 && (text = ['0'] || text.head? ≠ some '0') &&
    Nat.ofDigitChars 10 text 0 ≤ 255

def is_ipv4 (text : List Char) : Bool :=
  (text.splitOn '.').length = 4 && (text.splitOn '.').all is_octet

def hex_digits : List Char := "0123456789ABCDEFabcdef".toList

def is_hextet (text : List Char) : Bool :=
  text ≠ [] && text.all (· ∈ hex_digits) && text.length ≤ 4

/-- The parts between colons, with an IPv4 address at the end written as two hextets. -/
def ipv6_parts (address : List Char) : Option (List (List Char)) :=
  let parts := address.splitOn ':'
  let last := parts.getLast?.getD []
  if '.' ∉ last then some parts
  else if is_ipv4 last = false then none
  else
    let octets := (last.splitOn '.').map fun octet => Nat.ofDigitChars 10 octet 0
    let value := octets.foldl (fun value octet => 256 * value + octet) 0
    some (parts.dropLast ++ [Nat.toDigits 16 (value / 65536), Nat.toDigits 16 (value % 65536)])

/-- The places of the empty parts that are neither the first nor the last one. -/
def skips (parts : List (List Char)) : List Nat :=
  (List.range parts.length).filter fun i => 0 < i && i + 1 < parts.length && parts.getD i [] = []

/-- Nothing, where an address starts or ends with `::`. -/
def half (parts : List (List Char)) : List (List Char) := if parts = [[]] then [] else parts

/-- An address without a scope. -/
def is_ipv6_address (address : List Char) : Bool :=
  3 ≤ (address.splitOn ':').length &&
  match ipv6_parts address with
  | none => false
  | some parts =>
    parts.length ≤ 9 &&
    match skips parts with
    | [] => parts.length = 8 && parts.all is_hextet
    | [skip] =>
      let hi := half (parts.take skip)
      let lo := half (parts.drop (skip + 1))
      hi.length + lo.length < 8 && (hi ++ lo).all is_hextet
    | _ :: _ :: _ => false

def is_ipv6 (text : List Char) : Bool :=
  let (address, has_scope, scope_id) := partition_at '%' text
  '/' ∉ text && (!has_scope || (scope_id ≠ [] && '%' ∉ scope_id)) && is_ipv6_address address

/-- `ip_address` does not raise. -/
def is_ip_address (text : List Char) : Bool := is_ipv4 text || is_ipv6 text

theorem is_ipv6_colon {text : List Char} (h : is_ipv6 text = true) : ':' ∈ text := by
  have haddress : is_ipv6_address (partition_at '%' text).1 = true := by
    unfold is_ipv6 at h
    exact (Bool.and_eq_true_iff.mp h).2
  -- an address without a colon has a single part
  have hcolon : ':' ∈ (partition_at '%' text).1 := by
    by_contra hnone
    unfold is_ipv6_address at haddress
    rw [List.splitOn_eq_singleton hnone] at haddress
    cases haddress
  rcases partition_at_cases '%' text with hscope | ⟨address, scope, hscope, rfl⟩
  · rw [partition_at_none hscope] at hcolon
    exact hcolon
  · rw [partition_at_cons hscope] at hcolon
    exact List.mem_append_left _ hcolon

example : is_ipv6 "fe80::1%eth0".toList = true := by decide +kernel
example : is_ipv6 "::ffff:10.0.0.5".toList = true := by decide +kernel
example : is_ip_address "192.168.1.42.nip.io".toList = false := by decide +kernel

end IotRobot.Lib
