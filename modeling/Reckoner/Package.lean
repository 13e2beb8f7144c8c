import Reckoner.Package.Bodies
import Reckoner.Package.Requests
import Reckoner.Package.Units
import Reckoner.Package.Validation

/-!
# Packages

What is taken from the packages that the calculator is built on, as far as their documentation and
their behaviour go. The definitions under this name are all that is assumed of them.

* The library of units gives the bytes in a mebibyte, gibibyte, tebibyte and pebibyte.
* The web framework takes the target of a request apart, finds the place that a path names, takes
  HEAD where it takes GET and OPTIONS everywhere, moves a path with doubled slashes, and tells
  whether a type of content is JSON.
* The web framework reads bodies and writes answers, up to limits that are parameters.
* The library that validates payloads says which values it takes for a text, a whole number and a
  truth value, which bounds it checks and in which order, what it complains about, and in which
  words.
-/
