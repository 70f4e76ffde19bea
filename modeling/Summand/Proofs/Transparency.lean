import Summand.Proofs.Coloring

/-! A foreground color stands around requests to a sink and does not touch them. The
requests are answered as they would be without it, by the sink as it is once the color is
set. Where the color cannot be set nothing is asked of the sink any more. Otherwise one
reset and one flush are asked of it in the end, and nobody is told what becomes of them. -/
namespace Summand.Transparency
open Coloring Delivery Writing

variable {requests : List Request} {request : Request} {color : Color}
  {before painted drawn after : Sink}

end Summand.Transparency
