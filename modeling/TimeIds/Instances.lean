/-!
The instances of core for powers, for the zero of a sum and for the equality of byte arrays,
preferred over others that a larger library brings along: a definition means the same wherever it is
read.
-/
namespace TimeIds

attribute [scoped instance (high)] instPowNat
attribute [default_instance 20000] instPowNat
attribute [scoped instance (high)] Zero.ofOfNat0
attribute [scoped instance (high)] ByteArray.instDecidableEq

end TimeIds
